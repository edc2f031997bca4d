import StreamAuth.Proofs.Characters
import StreamAuth.Proofs.Delivery
import StreamAuth.Proofs.Documents
import StreamAuth.Proofs.Output
import StreamAuth.Proofs.Stanzas

/-!
# The choice of a mechanism

The features of a stream are a tree of elements, and every element in it that is called a mechanism names one. Which mechanism a
session announces for them depends on the names alone, and more names never make it weaker.
-/

namespace StreamAuth

namespace Xml.Element

/-! ## Elements inside an element -/

/-- An element is inside another one, at any depth, or is the element itself. -/
inductive Within : Element → Element → Prop where
  | self (e : Element) : Within e e
  | child {e child root : Element} : child ∈ root.children → Within e child → Within e root

/-- The elements of a row of trees are those of its trees. -/
theorem mem_preorderAll_iff {e : Element} {row : List Element} : e ∈ preorderAll row ↔ ∃ root ∈ row, e ∈ root.preorder := by
  induction row with
  | nil => simp [preorderAll_nil]
  | cons root row ih => simp [preorderAll_cons, ih]

theorem preorder_eq (e : Element) : e.preorder = e :: preorderAll e.children := by
  cases e
  exact preorder_mk ..

/-- The list of all elements has those that are inside. -/
theorem mem_preorder_of_within {e root : Element} (h : e.Within root) : e ∈ root.preorder := by
  induction h with
  | self =>
    rw [preorder_eq]
    exact List.mem_cons_self
  | child hc _ ih =>
    rw [preorder_eq]
    exact List.mem_cons_of_mem _ (mem_preorderAll_iff.mpr ⟨_, hc, ih⟩)

/-- The list of all elements has only those that are inside. -/
theorem within_of_mem_preorder {e : Element} : (root : Element) → e ∈ root.preorder → e.Within root
  | ⟨name, attributes, text, children⟩, h => by
    rw [preorder_mk, List.mem_cons] at h
    rcases h with rfl | h
    · exact .self _
    · obtain ⟨child, hc, hchild⟩ := mem_preorderAll_iff.mp h
      exact .child hc (within_of_mem_preorder child hchild)
termination_by root => root
decreasing_by
  have := List.sizeOf_lt_of_mem hc
  simp only [Element.mk.sizeOf_spec]
  omega

theorem mem_preorder_iff {e root : Element} : e ∈ root.preorder ↔ e.Within root :=
  ⟨within_of_mem_preorder root, mem_preorder_of_within⟩

/-- The names of mechanisms in a tree: the texts of the elements that are called so, wherever they are, unless they are empty. -/
def mechanismNames (root : Element) : Set String :=
  {text | ∃ e : Element, e.Within root ∧ e.localName = "mechanism" ∧ e.text = text ∧ text ≠ ""}

end Xml.Element

/-! ## Offers -/

/-- An offer is the names of mechanisms in a tree. -/
theorem mem_offerOf_iff {root : Xml.Element} {text : String} : text ∈ offerOf root ↔ text ∈ root.mechanismNames := by
  rw [offerOf, Std.TreeSet.mem_ofList, List.contains_iff_mem, List.mem_map]
  constructor
  · rintro ⟨e, he, rfl⟩
    obtain ⟨hmem, hcalled⟩ := List.mem_filter.mp he
    simp only [Bool.and_eq_true, beq_iff_eq, Bool.not_eq_true', String.isEmpty_eq_false_iff] at hcalled
    exact ⟨e, Xml.Element.mem_preorder_iff.mp hmem, hcalled.1, rfl, hcalled.2⟩
  · rintro ⟨e, hw, hname, rfl, hne⟩
    refine ⟨e, List.mem_filter.mpr ⟨Xml.Element.mem_preorder_iff.mpr hw, ?_⟩, rfl⟩
    simp only [Bool.and_eq_true, beq_iff_eq, Bool.not_eq_true', String.isEmpty_eq_false_iff]
    exact ⟨hname, hne⟩

/-- The mechanism that is selected: the first of the two whose name is offered. -/
theorem select_eq (offer : Offer) :
    Mechanism.select offer =
      if "SCRAM-SHA-1" ∈ offer then .scramSha1 else if "DIGEST-MD5" ∈ offer then .digestMd5 else .plain := by
  simp only [Mechanism.select, Mechanism.preferred, List.find?_cons, List.find?_nil, Mechanism.name, Std.TreeSet.mem_iff_contains]
  cases offer.contains "SCRAM-SHA-1" <;> cases offer.contains "DIGEST-MD5" <;> rfl

/-! ## Features as they are written -/

open Session (watched)

/-- Features as a server can write them: a tree of which all that is written is one stanza of features, with no other stanza that
is watched for in it. -/
structure Features where
  /-- The tree. -/
  root : Xml.Element
  /-- What is written for it. -/
  text : List Char
  written : Xml.Written [root] text
  encloses : SpanKind.features.delimiters.Encloses (Utf8.encode text)
  alone : ∀ kind ∈ watched .awaitingFeatures, ¬kind.delimiters.opening <:+: (Utf8.encode text).tail

namespace Features

variable (f : Features)

/-- The bytes of the stanza. -/
def bytes : Bytes :=
  Utf8.encode f.text

/-- The stanza is its own frame. -/
theorem frame?_bytes : SpanKind.features.delimiters.frame? f.bytes = some ⟨[], f.bytes, []⟩ :=
  Delimiters.frame?_eq_some_iff.mpr ⟨SpanKind.features.opening_ne_nil, SpanKind.features.closing_ne_nil,
    (List.append_nil _).symm, endsAtFirst_self SpanKind.features.opening_ne_nil, f.encloses⟩

/-- However much of the features has arrived, nothing is taken from it but all of it. -/
theorem eq_of_firstSpan? {arrived : Bytes} (hp : arrived <+: f.bytes) {span : Span SpanKind}
    (h : Phase.awaitingFeatures.firstSpan? arrived = some span) : span = ⟨.features, f.bytes, []⟩ := by
  obtain ⟨hk, dropped, hframe, _⟩ := Phase.frame?_of_firstSpan? h
  obtain ⟨more, hmore⟩ := hp
  have hwhole := Delimiters.frame?_append more hframe
  rw [hmore] at hwhole
  obtain ⟨_, _, hb, content, hspan⟩ := Delimiters.eq_of_frame? hwhole
  simp only at hb hspan
  -- A stanza that is watched for begins only at the front, and so is the features.
  have hopening : dropped ++ span.kind.delimiters.opening <+: f.bytes :=
    ⟨content ++ span.kind.delimiters.closing ++ (span.rest ++ more), by rw [hb, hspan]; simp⟩
  have hdropped : dropped = [] := by
    by_contra hne
    obtain ⟨b, front, rfl⟩ := List.exists_cons_of_ne_nil hne
    refine f.alone span.kind hk ?_
    obtain ⟨back, hback⟩ := hopening
    exact ⟨front, back, congrArg List.tail hback⟩
  rw [hdropped, List.nil_append] at hopening
  have hkind : span.kind = .features := by
    obtain ⟨body, hbody, _⟩ := f.encloses
    exact SpanKind.eq_of_openings hopening ⟨body, hbody.symm⟩
  rw [hkind, f.frame?_bytes] at hwhole
  obtain ⟨_, hbytes, hrest⟩ := Frame.mk.inj (Option.some.inj hwhole)
  obtain ⟨kind, bytes, rest⟩ := span
  obtain ⟨rfl, _⟩ := List.append_eq_nil_iff.mp hrest.symm
  cases hkind
  cases hbytes
  rfl

/-- All of it is taken. -/
theorem firstSpan?_bytes : Phase.awaitingFeatures.firstSpan? f.bytes = some ⟨.features, f.bytes, []⟩ := by
  have hwatched : SpanKind.features ∈ watched .awaitingFeatures := by decide
  obtain ⟨span, hspan⟩ := Phase.exists_firstSpan? hwatched f.frame?_bytes
  rw [hspan, f.eq_of_firstSpan? (List.prefix_refl _) hspan]

/-- It does not matter in which pieces the features arrive. -/
theorem unambiguous : Phase.Unambiguous .awaitingFeatures f.bytes := by
  refine .taken f.firstSpan?_bytes (fun arrived early hp he => ?_) fun _ _ => .quiet rfl
  rw [f.eq_of_firstSpan? hp he]

/-- Features that offer a mechanism are answered with its announcement. -/
theorem answer_of_ne_plain {m : Mechanism} (h : Mechanism.select (offerOf f.root) = m) (hm : m ≠ .plain) :
    SpanKind.features.answer f.bytes = .ok (.announce m) :=
  SpanKind.answer_features_of_written f.written h hm

/-- Features that offer none are answered with an error. -/
theorem answer_of_plain (h : Mechanism.select (offerOf f.root) = .plain) :
    SpanKind.features.answer f.bytes = .error (.nothingInCommon (offerOf f.root).toList) := by
  simp only [SpanKind.answer, bytes, readFeatures_of_written f.written, h]

end Features

/-! ## What is announced for them -/

namespace Delivery

/-- A mechanism has been announced, and challenges are awaited. -/
def Announced (credentials : Credentials) (nonce : String) (d : Delivery) (m : Mechanism) : Prop :=
  d.observation = ⟨[(Stanza.announce m credentials.username nonce).toBytes], [], none, 0, .awaitingChallenge, []⟩ ∧
    d.session.mechanism? = some m

/-- Nothing has been written, and the session was closed because only these mechanisms are offered. -/
def Refused (d : Delivery) (names : Set String) : Prop :=
  ∃ offered, d.observation = ⟨[], [], some (.nothingInCommon offered), 1, .closed, []⟩ ∧ d.session.mechanism? = none ∧
    ∀ text, text ∈ offered ↔ text ∈ names

/-- What comes of a delivery whose names are these: the stronger of the two mechanisms that is named, or a refusal. -/
inductive Chooses (credentials : Credentials) (nonce : String) (d : Delivery) (names : Set String) : Prop where
  | scramSha1 : "SCRAM-SHA-1" ∈ names → d.Announced credentials nonce .scramSha1 → Chooses credentials nonce d names
  | digestMd5 : "SCRAM-SHA-1" ∉ names → "DIGEST-MD5" ∈ names → d.Announced credentials nonce .digestMd5 →
      Chooses credentials nonce d names
  | refused : "SCRAM-SHA-1" ∉ names → "DIGEST-MD5" ∉ names → d.Refused names → Chooses credentials nonce d names

variable {credentials : Credentials} {nonce : String} {d : Delivery} {names : Set String}

/-- A choice is made of one mechanism at most, and of none if there is a refusal. -/
theorem Chooses.iff (h : d.Chooses credentials nonce names) :
    (d.Announced credentials nonce .scramSha1 ↔ "SCRAM-SHA-1" ∈ names) ∧
      (d.Announced credentials nonce .digestMd5 ↔ "SCRAM-SHA-1" ∉ names ∧ "DIGEST-MD5" ∈ names) ∧
      (d.Refused names ↔ "SCRAM-SHA-1" ∉ names ∧ "DIGEST-MD5" ∉ names) := by
  -- The three outcomes leave different mechanisms.
  have hscram : d.Announced credentials nonce .scramSha1 → d.session.mechanism? = some .scramSha1 := And.right
  have hdigest : d.Announced credentials nonce .digestMd5 → d.session.mechanism? = some .digestMd5 := And.right
  have hrefused : d.Refused names → d.session.mechanism? = none := fun ⟨_, _, hnone, _⟩ => hnone
  cases h with
  | scramSha1 hs hd =>
    have hm := hscram hd
    refine ⟨iff_of_true hd hs, iff_of_false (fun h => ?_) (fun h => h.1 hs), iff_of_false (fun h => ?_) (fun h => h.1 hs)⟩
    · cases hm.symm.trans (hdigest h)
    · cases hm.symm.trans (hrefused h)
  | digestMd5 hs hm hd =>
    have hmechanism := hdigest hd
    refine ⟨iff_of_false (fun h => ?_) hs, iff_of_true hd ⟨hs, hm⟩, iff_of_false (fun h => ?_) (fun h => h.2 hm)⟩
    · cases hmechanism.symm.trans (hscram h)
    · cases hmechanism.symm.trans (hrefused h)
  | refused hs hm hd =>
    have hmechanism := hrefused hd
    refine ⟨iff_of_false (fun h => ?_) hs, iff_of_false (fun h => ?_) (fun h => hm h.2), iff_of_true hd ⟨hs, hm⟩⟩
    · cases hmechanism.symm.trans (hscram h)
    · cases hmechanism.symm.trans (hdigest h)

end Delivery

/-- How strong what a session has announced is. -/
def strength : Option Mechanism → Nat
  | some .scramSha1 => 2
  | some .digestMd5 => 1
  | some .plain | none => 0

/-- Of more names, no weaker mechanism is chosen. -/
theorem Delivery.Chooses.strength_le {credentials : Credentials} {nonce : String} {d d' : Delivery} {names names' : Set String}
    (h : d.Chooses credentials nonce names) (h' : d'.Chooses credentials nonce names') (hnames : names ⊆ names') :
    strength d.session.mechanism? ≤ strength d'.session.mechanism? := by
  cases h with
  | refused _ _ hd =>
    obtain ⟨_, _, hnone, _⟩ := hd
    rw [hnone]
    exact Nat.zero_le _
  | scramSha1 hs hd =>
    rw [(h'.iff.1.mpr (hnames hs)).2, hd.2]
  | digestMd5 _ hm hd =>
    rw [hd.2]
    cases h' with
    | scramSha1 _ hd' => rw [hd'.2]; decide
    | digestMd5 _ _ hd' => rw [hd'.2]
    | refused _ hm' _ => exact absurd (hnames hm) hm'

/-- A session that waits for features, and of which nothing is buffered or held. -/
structure Session.Expectant (s : Session) : Prop where
  phase : s.phase = .awaitingFeatures
  buffer : s.buffer = .empty
  held : s.held? = none
  mechanism : s.mechanism? = none

namespace Features

variable {s : Session} (h : s.Expectant) (f : Features) {pieces : List Bytes} (hpieces : pieces.flatten = f.bytes)

include h hpieces

/-- Delivered in whatever pieces, features come to what reading all of them comes to. -/
theorem feed_eq_read :
    ((({ session := s } : Delivery).feed pieces).observation =
        (⟨[], [], none, 0, .awaitingFeatures, []⟩ : Observation).extend s.credentials s.nonce
          (Phase.awaitingFeatures.read f.bytes)) ∧
      (({ session := s } : Delivery).feed pieces).session.mechanism? =
        (Phase.awaitingFeatures.read f.bytes).answers.foldl Answer.mechanismAfter none := by
  have hready : s.Ready := ⟨Or.inl h.phase, h.held⟩
  have hfeed := Delivery.observation_feed pieces (d := { session := s }) rfl hready
  have hread := Phase.readPieces_eq_read_of_flatten hpieces f.unambiguous
  have hbytes : s.buffer.bytes = [] := by rw [h.buffer]; rfl
  rw [Delivery.observation] at hfeed
  simp only [h.phase, hbytes, h.mechanism, hread] at hfeed
  exact hfeed

/-- A mechanism that is selected from the features is announced. -/
theorem announced {m : Mechanism} (hselect : Mechanism.select (offerOf f.root) = m) (hm : m ≠ .plain) :
    (({ session := s } : Delivery).feed pieces).Announced s.credentials s.nonce m := by
  obtain ⟨hobservation, hmechanism⟩ := f.feed_eq_read h hpieces
  have hquiet : Phase.awaitingChallenge.read [] = ⟨[], none, .awaitingChallenge, []⟩ := Phase.read_of_none rfl
  rw [Phase.read_of_ok f.firstSpan?_bytes (f.answer_of_ne_plain hselect hm), hquiet] at hobservation hmechanism
  exact ⟨hobservation, hmechanism⟩

/-- If none is selected, the session is closed. -/
theorem refused (hselect : Mechanism.select (offerOf f.root) = .plain) :
    (({ session := s } : Delivery).feed pieces).Refused f.root.mechanismNames := by
  obtain ⟨hobservation, hmechanism⟩ := f.feed_eq_read h hpieces
  rw [Phase.read_of_error f.firstSpan?_bytes (f.answer_of_plain hselect)] at hobservation hmechanism
  refine ⟨_, hobservation, hmechanism, fun text => ?_⟩
  rw [Std.TreeSet.mem_toList]
  exact mem_offerOf_iff

/-- What features come to depends on the names of mechanisms in them alone. -/
theorem chooses : (({ session := s } : Delivery).feed pieces).Chooses s.credentials s.nonce f.root.mechanismNames := by
  have hselect := select_eq (offerOf f.root)
  by_cases hs : "SCRAM-SHA-1" ∈ f.root.mechanismNames
  · rw [if_pos (mem_offerOf_iff.mpr hs)] at hselect
    exact .scramSha1 hs (f.announced h hpieces hselect nofun)
  rw [if_neg (mt mem_offerOf_iff.mp hs)] at hselect
  by_cases hm : "DIGEST-MD5" ∈ f.root.mechanismNames
  · rw [if_pos (mem_offerOf_iff.mpr hm)] at hselect
    exact .digestMd5 hs hm (f.announced h hpieces hselect nofun)
  · rw [if_neg (mt mem_offerOf_iff.mp hm)] at hselect
    exact .refused hs hm (f.refused h hpieces hselect)

end Features

/-- A session that has been used and still waits for features has announced and holds nothing. -/
theorem Session.expectant_calls (id : String) (credentials : Credentials) (nonce : String) (ops : List Session.Operation) :
    let s := ((Session.new id credentials nonce).calls ops).1
    s.phase = .awaitingFeatures → s.buffer = .empty → s.Expectant ∧ s.credentials = credentials ∧ s.nonce = nonce := by
  intro s hphase hbuffer
  have hnew : (Session.new id credentials nonce).Shows credentials nonce .empty := Session.shows_new id
  obtain ⟨o, hs, _⟩ := Session.shows_calls ops hnew
  change s.Shows credentials nonce o at hs
  refine ⟨⟨hphase, hbuffer, ?_, hs.mechanism.trans (hs.features hphase).2⟩, hs.credentials, hs.nonce⟩
  by_contra hheld
  cases hphase.symm.trans (hs.held hheld)

/-- How a session chooses a mechanism, in four parts. Whatever has been done with a new session, if it waits for features and
nothing is buffered, then for all features as a server can write them, delivered in any pieces:
1. SCRAM-SHA-1 is announced if and only if it is named in them.
2. DIGEST-MD5 is announced if and only if it is named in them and SCRAM-SHA-1 is not.
3. If and only if neither is named, nothing is written, the session is closed with the error that no mechanism is in common, and
   it has no mechanism.
4. Features in which the same mechanisms are named and perhaps others never make the choice a weaker one. -/
theorem choice_of_features (id : String) (credentials : Credentials) (nonce : String) (ops : List Session.Operation)
    (hphase : ((Session.new id credentials nonce).calls ops).1.phase = .awaitingFeatures)
    (hbuffer : ((Session.new id credentials nonce).calls ops).1.buffer = .empty) (f : Features) (pieces : List Bytes)
    (hpieces : pieces.flatten = f.bytes) :
    let s := ((Session.new id credentials nonce).calls ops).1
    let d := ({ session := s } : Delivery).feed pieces
    let names := f.root.mechanismNames
    (d.Announced credentials nonce .scramSha1 ↔ "SCRAM-SHA-1" ∈ names) ∧
      (d.Announced credentials nonce .digestMd5 ↔ "SCRAM-SHA-1" ∉ names ∧ "DIGEST-MD5" ∈ names) ∧
      (d.Refused names ↔ "SCRAM-SHA-1" ∉ names ∧ "DIGEST-MD5" ∉ names) ∧
      ∀ (f' : Features) (pieces' : List Bytes), pieces'.flatten = f'.bytes → names ⊆ f'.root.mechanismNames →
        strength d.session.mechanism? ≤ strength (({ session := s } : Delivery).feed pieces').session.mechanism? := by
  intro s d names
  obtain ⟨hs, hc, hn⟩ := Session.expectant_calls id credentials nonce ops hphase hbuffer
  have hchooses : ∀ (f : Features) (pieces : List Bytes), pieces.flatten = f.bytes →
      (({ session := s } : Delivery).feed pieces).Chooses credentials nonce f.root.mechanismNames := by
    intro f pieces hpieces
    have hf := f.chooses hs hpieces
    rwa [hc, hn] at hf
  obtain ⟨hscram, hdigest, hrefused⟩ := (hchooses f pieces hpieces).iff
  exact ⟨hscram, hdigest, hrefused, fun f' pieces' hpieces' hnames =>
    (hchooses f pieces hpieces).strength_le (hchooses f' pieces' hpieces') hnames⟩

/-- Features with a mechanism two levels down, under a name with a prefix, beside an element that is a single tag. -/
def nestedFeatures : Features where
  root := ⟨"stream:features", [], "",
    [⟨"list", [("for", "a<b")], "", [⟨"x:mechanism", [], "SCRAM-SHA-1", []⟩]⟩, ⟨"other", [], "", []⟩]⟩
  text := "<stream:features><list for='a&lt;b'><x:mechanism>SCRAM-SHA-1</x:mechanism></list><other/></stream:features>".toList
  written := by
    have hname : ∀ name ∈ ["stream:features", "list", "for", "x:mechanism", "other"], Xml.IsName name.toList := by
      intro name hmem
      simp only [List.mem_cons, List.not_mem_nil, or_false] at hmem
      rcases hmem with rfl | rfl | rfl | rfl | rfl <;> decide
    have hempty : Xml.IsTrimmed "".toList := by decide
    have hscram : Xml.IsTrimmed "SCRAM-SHA-1".toList := by decide
    have hattributes : Xml.WrittenAttributes [("for", "a<b")] _ := .cons (hname "for" (by simp)) (by decide) (Or.inr rfl) .nil
    have hmechanism := Xml.Written.element (hname "x:mechanism" (by simp)) .nil hscram .nil .nil
    have hother := Xml.Written.single (hname "other" (by simp)) .nil .nil
    have hlist := Xml.Written.element (hname "list" (by simp)) hattributes hempty hmechanism hother
    have hfeatures := Xml.Written.element (hname "stream:features" (by simp)) .nil hempty hlist .nil
    convert hfeatures using 1
    decide +kernel
  encloses := ⟨Utf8.ofString
    "><list for='a&lt;b'><x:mechanism>SCRAM-SHA-1</x:mechanism></list><other/></stream:features>",
    by decide +kernel, by decide +kernel⟩
  alone := by decide +kernel

/-- The mechanism in them is announced, though they arrive cut in its name. -/
theorem choice_of_nestedFeatures :
    let s := ((Session.new "id" ⟨"host", "user", "password"⟩ "nonce").calls [.handle .connected]).1
    let pieces := [nestedFeatures.bytes.take 42, nestedFeatures.bytes.drop 42]
    (s.phase = .awaitingFeatures ∧ s.buffer = .empty ∧ pieces.flatten = nestedFeatures.bytes) ∧
      (({ session := s } : Delivery).feed pieces).Announced ⟨"host", "user", "password"⟩ "nonce" .scramSha1 := by
  intro s pieces
  have hpieces : pieces.flatten = nestedFeatures.bytes := by
    simp only [pieces, List.flatten_cons, List.flatten_nil, List.append_nil, List.take_append_drop]
  have hnamed : "SCRAM-SHA-1" ∈ nestedFeatures.root.mechanismNames :=
    ⟨⟨"x:mechanism", [], "SCRAM-SHA-1", []⟩,
      .child List.mem_cons_self (.child List.mem_cons_self (.self _)), by decide +kernel, rfl, by decide⟩
  have hchoice := choice_of_features "id" ⟨"host", "user", "password"⟩ "nonce" [.handle .connected] rfl rfl nestedFeatures
    pieces hpieces
  exact ⟨⟨rfl, rfl, hpieces⟩, hchoice.1.mpr hnamed⟩

end StreamAuth
