import Mathlib.Data.List.Infix
import Mathlib.Data.List.DropRight
import StreamAuth.Proofs.Characters
import StreamAuth.Proofs.Delivery
import StreamAuth.Proofs.Documents
import StreamAuth.Proofs.Encoding
import StreamAuth.Proofs.Quiescence

/-!
# Rows of challenges

A challenge can be written with an end tag or, if nothing is in it, as a single tag, and a document of either form is read as
the same element. A stanza, though, ends with an end tag, and its root is the first element in it. So a row of challenges is cut
behind each end tag, and single tags in front of one are taken together with what it ends (`read_row`): one challenge is handed
out for each end tag, and single tags behind the last one wait in the buffer.
-/

namespace StreamAuth

open Session (watched)

/-! ## Challenges as they are written -/

/-- A challenge as a server can write it. -/
structure ChallengeElement where
  /-- The attributes. -/
  attributes : List (String × String)
  /-- What is spelled for the attributes. -/
  spelling : List Char
  /-- What stands between the tags; `none` if the challenge is a single tag. -/
  content? : Option (List Char)
  /-- The payload. -/
  payload : Bytes
  spelled : Xml.SpelledAttributes attributes spelling
  carries : Base64.decode (Utf8.encode (content?.getD [])) = .ok payload

namespace ChallengeElement

/-- Whether the challenge is a single tag. -/
def isSingle (e : ChallengeElement) : Bool :=
  e.content?.isNone

/-- What is written in front of the end tag, or for the single tag. -/
def front (e : ChallengeElement) : List Char :=
  match e.content? with
  | none => '<' :: ("challenge".toList ++ e.spelling) ++ ['/', '>']
  | some content => '<' :: ("challenge".toList ++ e.spelling) ++ '>' :: content

/-- The end tag, if there is one. -/
def back (e : ChallengeElement) : List Char :=
  match e.content? with
  | none => []
  | some _ => '<' :: ('/' :: "challenge".toList ++ ['>'])

/-- The bytes of the challenge. -/
def bytes (e : ChallengeElement) : Bytes :=
  Utf8.encode (e.front ++ e.back)

/-- A single tag without attributes. -/
def single : ChallengeElement :=
  ⟨[], [], none, [], .nil nofun, rfl⟩

/-- A challenge without attributes, with the encoding of a payload between its tags. -/
def around (payload : Bytes) : ChallengeElement where
  attributes := []
  spelling := []
  content? := some (Base64.encodeText payload).toList
  payload := payload
  spelled := .nil nofun
  carries := by
    rw [Option.getD_some, ← Utf8.ofString, Base64.ofString_encodeText]
    exact Base64.decode_encode payload

/-- The bytes of a row of challenges. -/
def row (es : List ChallengeElement) : Bytes :=
  es.flatMap bytes

/-- The challenges that are handed out for a row of them: one for each element with an end tag, with its payload, or without any
if single tags stand directly in front of it. Here `behind` says whether single tags stand directly in front of the row. -/
def handed (behind : Bool) : List ChallengeElement → List Challenge
  | [] => []
  | e :: es =>
    if e.isSingle then handed true es
    else ⟨if behind then [] else e.payload⟩ :: handed false es

end ChallengeElement

/-! ## Texts that carry a payload -/

namespace Base64

/-- Blanks of a document fold a payload. -/
theorem filter_encode_blank {cs : List Char} (h : Xml.IsBlank cs) :
    ((Utf8.encode cs).filter fun b => !Text.isFold b) = [] := by
  have hfold : ([' ', '\t', '\n', '\r'].all fun c => (String.utf8EncodeChar c).all Text.isFold) = true := by decide
  refine List.filter_eq_nil_iff.mpr fun b hb => ?_
  obtain ⟨c, hc, hbyte⟩ := List.mem_flatMap.mp hb
  have hblank : c ∈ [' ', '\t', '\n', '\r'] := by
    have hc := h c hc
    simpa [Text.isXmlBlank, or_assoc] using hc
  rw [List.all_eq_true.mp (List.all_eq_true.mp hfold c hblank) b hbyte]
  exact Bool.false_ne_true

/-- Blanks of a document make no difference to the payload, wherever they stand. -/
theorem filter_encode_inked (cs : List Char) :
    ((Utf8.encode (Xml.inked cs)).filter fun b => !Text.isFold b) = (Utf8.encode cs).filter fun b => !Text.isFold b := by
  induction cs with
  | nil => rfl
  | cons c cs ih =>
    rw [← List.singleton_append, Xml.inked_append, Utf8.encode_append, Utf8.encode_append, List.filter_append,
      List.filter_append, ih]
    by_cases hblank : Text.isXmlBlank c
    · have hc : Xml.IsBlank [c] := by simpa [Xml.IsBlank] using hblank
      rw [hc.inked, filter_encode_blank hc]
      rfl
    · simp [Xml.inked, hblank]

/-- The payload of a text is that of the text without the blanks at its two ends. -/
theorem decode_trim {cs : List Char} {payload : Bytes} (h : decode (Utf8.encode cs) = .ok payload) :
    decode (Utf8.encode (Text.trim Text.isXmlBlank cs)) = .ok payload := by
  rw [decode_eq_ok_iff] at h ⊢
  rw [← filter_encode_inked, Xml.inked_trim, filter_encode_inked, h]

/-- No markup begins or ends in a text that carries a payload, and no reference begins in it. -/
theorem not_mem_of_decode {cs : List Char} {payload : Bytes} (h : decode (Utf8.encode cs) = .ok payload) :
    '<' ∉ cs ∧ '&' ∉ cs ∧ '>' ∉ cs := by
  have hbyte : ∀ b : UInt8, Text.isFold b = false → b ≠ pad → ((List.range 64).all fun n => symbol n != b) = true →
      b ∉ Utf8.encode cs := by
    intro b hfold hpad hsymbols hb
    rcases isFold_or_isWritten_of_decode h hb with hf | hw
    · rw [hfold] at hf
      cases hf
    · have hne := hw.of_all (p := fun x => x != b) (bne_iff_ne.mpr hpad.symm) hsymbols
      exact bne_iff_ne.mp hne rfl
  refine ⟨fun hm => ?_, fun hm => ?_, fun hm => ?_⟩
  · exact hbyte 60 (by decide) (by decide) (by decide) (List.mem_flatMap.mpr ⟨'<', hm, by decide⟩)
  · exact hbyte 38 (by decide) (by decide) (by decide) (List.mem_flatMap.mpr ⟨'&', hm, by decide⟩)
  · exact hbyte 62 (by decide) (by decide) (by decide) (List.mem_flatMap.mpr ⟨'>', hm, by decide⟩)

end Base64

/-- A span is read as an element exactly if it is the text of a document that is read as the element. -/
theorem parseSpan_eq_ok_iff {span : Bytes} {root : Xml.Element} :
    parseSpan span = .ok root ↔ ∃ text, span = Utf8.ofString text ∧ Xml.parse text = .ok root := by
  constructor
  · intro h
    unfold parseSpan at h
    split at h
    · cases h
    · rename_i text hdecode
      refine ⟨text, Utf8.decode_eq_ok_iff.mp hdecode, ?_⟩
      unfold parseText at h
      cases hparse : Xml.parse text with
      | error fault =>
        rw [hparse] at h
        cases h
      | ok element =>
        rw [hparse] at h
        cases h
        rfl
  · rintro ⟨text, rfl, hparse⟩
    rw [parseSpan, Utf8.decode_eq_ok_iff.mpr rfl]
    simp only [parseText, hparse]
    rfl

/-- A span is decoded to a challenge exactly if it is the text of a document whose root is a challenge and carries the
payload. -/
theorem Challenge.decode_eq_ok_iff {span : Bytes} {c : Challenge} :
    decode span = .ok c ↔ ∃ text root, span = Utf8.ofString text ∧ Xml.parse text = .ok root ∧
      root.localName = "challenge" ∧ Base64.decode (Utf8.ofString root.text) = .ok c.payload := by
  constructor
  · intro h
    rw [decode] at h
    cases hspan : parseSpan span with
    | error fault =>
      rw [hspan] at h
      cases h
    | ok root =>
      obtain ⟨text, htext, hparse⟩ := parseSpan_eq_ok_iff.mp hspan
      simp only [hspan, bind, Except.bind] at h
      split at h
      · rename_i hname
        refine ⟨text, root, htext, hparse, hname, ?_⟩
        cases hdecode : Base64.decode (Utf8.ofString root.text) with
        | error cause =>
          rw [hdecode] at h
          cases h
        | ok payload =>
          rw [hdecode] at h
          cases h
          rfl
      · cases h
  · rintro ⟨text, root, htext, hparse, hlocal, hdecode⟩
    have hspan : parseSpan span = .ok root := parseSpan_eq_ok_iff.mpr ⟨text, htext, hparse⟩
    have hname : root.localName = SpanKind.challenge.tag := hlocal
    simp only [decode, hspan, bind, Except.bind, if_pos hname, hdecode]
    rfl

namespace ChallengeElement

/-- Nothing is between the tags of a single tag, so it carries nothing. -/
theorem payload_of_isSingle {e : ChallengeElement} (h : e.isSingle) : e.payload = [] := by
  have hcarries := e.carries
  rw [Option.isNone_iff_eq_none.mp h] at hcarries
  exact (Except.ok.inj hcarries).symm

/-- A text that begins with a challenge is read as an element with a text that carries the payload, whatever stands behind it. -/
theorem exists_parse (e : ChallengeElement) (rest : List Char) :
    ∃ text, Xml.parse (String.ofList (e.front ++ e.back ++ rest)) = .ok ⟨"challenge", e.attributes, text, []⟩ ∧
      Base64.decode (Utf8.ofString text) = .ok e.payload := by
  have hname : Xml.IsName "challenge".toList := by decide
  have hcarries := e.carries
  cases hc : e.content? with
  | none =>
    rw [hc] at hcarries
    refine ⟨"", ?_, hcarries⟩
    simpa [front, back, hc] using Xml.parse_emptyTag hname e.spelled rest
  | some content =>
    rw [hc, Option.getD_some] at hcarries
    obtain ⟨hlt, hand, -⟩ := Base64.not_mem_of_decode hcarries
    have htrimmed : '&' ∉ Text.trim Text.isXmlBlank content := fun hm => hand (Xml.mem_of_mem_trim hm)
    refine ⟨String.ofList (Text.trim Text.isXmlBlank content), ?_, ?_⟩
    · simpa [front, back, hc] using Xml.parse_textElement hname e.spelled hlt (Xml.resolve_of_not_mem htrimmed) rest
    · rw [Utf8.ofString, String.toList_ofList]
      exact Base64.decode_trim hcarries

/-- What begins with a challenge is decoded to what the challenge carries, whatever stands behind it. -/
theorem decode_bytes (e : ChallengeElement) (rest : List Char) :
    Challenge.decode (e.bytes ++ Utf8.encode rest) = .ok ⟨e.payload⟩ := by
  obtain ⟨text, hparse, hdecode⟩ := e.exists_parse rest
  have hlocal : Xml.Element.localPart "challenge" = "challenge" := by decide
  refine Challenge.decode_eq_ok_iff.mpr ⟨_, _, ?_, hparse, hlocal, hdecode⟩
  rw [Utf8.ofString, String.toList_ofList, Utf8.encode_append, bytes]

/-- What is decoded of a row is its first challenge. -/
theorem decode_row (e : ChallengeElement) (es : List ChallengeElement) :
    Challenge.decode (row (e :: es)) = .ok ⟨e.payload⟩ := by
  have hrest : row es = Utf8.encode (es.flatMap fun e => e.front ++ e.back) := by
    simp only [row, Utf8.encode, List.flatMap_assoc]
    rfl
  rw [row, List.flatMap_cons, ← row, hrest, decode_bytes]

/-! ## Where spans begin and end in a row -/

/-- The end tag is the closing delimiter. -/
theorem bytes_of_end {e : ChallengeElement} (h : ¬e.isSingle) :
    e.bytes = Utf8.encode e.front ++ SpanKind.challenge.delimiters.closing := by
  have hback : Utf8.encode e.back = SpanKind.challenge.delimiters.closing := by
    obtain ⟨content, hc⟩ := Option.ne_none_iff_exists'.mp fun hn => h (Option.isNone_iff_eq_none.mpr hn)
    simp only [back, hc]
    decide
  rw [bytes, Utf8.encode_append, hback]

theorem bytes_of_isSingle {e : ChallengeElement} (h : e.isSingle) : e.bytes = Utf8.encode e.front := by
  have hback : e.back = [] := by simp only [back, Option.isNone_iff_eq_none.mp h]
  rw [bytes, hback, List.append_nil]

/-- A challenge begins with the opening delimiter, and has no other less-than sign in front of its end tag. -/
theorem encode_front (e : ChallengeElement) :
    ∃ name, Utf8.encode e.front = 60 :: name ∧ 60 ∉ name ∧ SpanKind.challenge.delimiters.opening <+: 60 :: name := by
  obtain ⟨inner, hfront, hinner⟩ : ∃ inner, e.front = '<' :: ("challenge".toList ++ inner) ∧ '<' ∉ inner := by
    have hspelling := e.spelled.lt_not_mem
    cases hc : e.content? with
    | none => exact ⟨e.spelling ++ ['/', '>'], by simp [front, hc], by simp [hspelling]⟩
    | some content =>
      have hcarries := e.carries
      rw [hc, Option.getD_some] at hcarries
      exact ⟨e.spelling ++ '>' :: content, by simp [front, hc], by simp [hspelling, (Base64.not_mem_of_decode hcarries).1]⟩
  have hsign : Utf8.encode ['<'] = [60] := by decide
  have hopening : SpanKind.challenge.delimiters.opening = 60 :: Utf8.encode "challenge".toList := by decide
  refine ⟨Utf8.encode ("challenge".toList ++ inner), ?_, ?_, ?_⟩
  · rw [hfront, ← List.singleton_append, Utf8.encode_append, hsign, List.singleton_append]
  · rw [Utf8.lt_mem_encode_iff, List.mem_append]
    exact not_or.mpr ⟨by decide, hinner⟩
  · rw [hopening, Utf8.encode_append, List.cons_prefix_cons]
    exact ⟨rfl, List.prefix_append _ _⟩

theorem opening_prefix_front (e : ChallengeElement) : SpanKind.challenge.delimiters.opening <+: Utf8.encode e.front := by
  obtain ⟨name, hfront, _, hopening⟩ := e.encode_front
  rwa [hfront]

theorem lt_prefix_front (e : ChallengeElement) : [60] <+: Utf8.encode e.front := by
  obtain ⟨name, hfront, _⟩ := e.encode_front
  exact ⟨name, hfront.symm⟩

/-- What begins with a less-than sign stands in front of an end tag only at the beginning of the challenge. -/
theorem prefix_of_infix_front {e : ChallengeElement} {needle : Bytes} (hlt : [60] <+: needle)
    (h : needle <:+: Utf8.encode e.front) : needle <+: Utf8.encode e.front := by
  obtain ⟨name, hfront, hname, _⟩ := e.encode_front
  rw [hfront] at h ⊢
  rcases List.infix_cons_iff.mp h with hp | hin
  · exact hp
  · exact absurd (hin.subset (hlt.subset List.mem_cons_self)) hname

/-- Nothing in front of an end tag ends a challenge. -/
theorem not_closing_front (e : ChallengeElement) :
    ¬SpanKind.challenge.delimiters.closing <:+: Utf8.encode e.front := by
  intro hin
  have hp := prefix_of_infix_front (by decide) hin
  rcases List.prefix_or_prefix_of_prefix hp e.opening_prefix_front with h | h <;> revert h <;> decide

/-- No stanza of another kind begins in a challenge. -/
theorem not_opening_bytes {kind : SpanKind} (hne : kind ≠ .challenge) (e : ChallengeElement) :
    ¬kind.delimiters.opening <:+: e.bytes := by
  have hlt : [60] <+: kind.delimiters.opening := by cases kind <;> decide
  have hfront : ¬kind.delimiters.opening <:+: Utf8.encode e.front := fun hin =>
    hne (SpanKind.eq_of_openings (prefix_of_infix_front hlt hin) e.opening_prefix_front)
  by_cases he : e.isSingle
  · rwa [bytes_of_isSingle he]
  · rw [bytes_of_end he]
    exact SpanKind.not_opening_infix_append hfront (by cases kind <;> decide) (Or.inl (by decide))

theorem lt_prefix_row (e : ChallengeElement) (es : List ChallengeElement) : [60] <+: row (e :: es) := by
  rw [row, List.flatMap_cons, bytes, Utf8.encode_append, List.append_assoc]
  exact e.lt_prefix_front.trans (List.prefix_append _ _)

/-- A needle with its only less-than sign in front stands in a row only inside one of the challenges. -/
theorem not_infix_row {name : Bytes} (hn : 60 ∉ name) {es : List ChallengeElement} (h : ∀ e ∈ es, ¬60 :: name <:+: e.bytes) :
    ¬60 :: name <:+: row es := by
  induction es with
  | nil => simp [row]
  | cons e es ih =>
    obtain ⟨he, hes⟩ := List.forall_mem_cons.mp h
    rw [row, List.flatMap_cons, ← row]
    cases es with
    | nil => simpa [row] using he
    | cons next es => exact not_infix_append_of_lt hn he (ih hes) (lt_prefix_row next es)

/-- No stanza of another kind begins in a row of challenges. -/
theorem not_opening_row {kind : SpanKind} (hne : kind ≠ .challenge) (es : List ChallengeElement) :
    ¬kind.delimiters.opening <:+: row es := by
  obtain ⟨name, hname, hn⟩ := SpanKind.opening_eq_cons kind
  rw [hname]
  refine not_infix_row hn fun e _ => ?_
  rw [← hname]
  exact not_opening_bytes hne e

/-- Nothing in a row of single tags ends a challenge. -/
theorem not_closing_row {es : List ChallengeElement} (h : ∀ e ∈ es, e.isSingle) :
    ¬SpanKind.challenge.delimiters.closing <:+: row es := by
  obtain ⟨name, hname, hn⟩ := SpanKind.closing_eq_cons .challenge
  rw [hname]
  refine not_infix_row hn fun e he => ?_
  rw [← hname, bytes_of_isSingle (h e he)]
  exact e.not_closing_front

/-! ## Groups -/

section

variable {singles : List ChallengeElement} {e : ChallengeElement} {es : List ChallengeElement}

/-- Single tags and the challenge with an end tag behind them are one span. -/
theorem encloses_group (hs : ∀ x ∈ singles, x.isSingle) (he : ¬e.isSingle) :
    SpanKind.challenge.delimiters.Encloses (row (singles ++ [e])) := by
  have hrow : row (singles ++ [e]) = row singles ++ Utf8.encode e.front ++ SpanKind.challenge.delimiters.closing := by
    simp [row, bytes_of_end he]
  rw [hrow]
  refine SpanKind.encloses_append_closing ?_ ?_
  · cases singles with
    | nil => exact e.opening_prefix_front
    | cons x singles =>
      rw [row, List.flatMap_cons, bytes, Utf8.encode_append, List.append_assoc, List.append_assoc]
      exact x.opening_prefix_front.trans (List.prefix_append _ _)
  · obtain ⟨name, hname, hn⟩ := SpanKind.closing_eq_cons .challenge
    have hsingles := not_closing_row hs
    have hfront := e.not_closing_front
    rw [hname] at hsingles hfront ⊢
    exact not_infix_append_of_lt hn hsingles hfront e.lt_prefix_front

/-- The frame of a row is the first challenge with an end tag, with all single tags in front of it. -/
theorem frame?_row (hs : ∀ x ∈ singles, x.isSingle) (he : ¬e.isSingle) (es : List ChallengeElement) :
    SpanKind.challenge.delimiters.frame? (row (singles ++ e :: es)) = some ⟨[], row (singles ++ [e]), row es⟩ := by
  refine Delimiters.frame?_eq_some_iff.mpr
    ⟨SpanKind.opening_ne_nil _, SpanKind.closing_ne_nil _, by simp [row], ?_, encloses_group hs he⟩
  exact endsAtFirst_self (SpanKind.opening_ne_nil _)

/-- Whatever is taken of a row while it arrives is a challenge. -/
theorem kind_of_firstSpan? {arrived : Bytes} {span : Span SpanKind} (hp : arrived <+: row es)
    (h : Phase.awaitingChallenge.firstSpan? arrived = some span) : span.kind = .challenge := by
  obtain ⟨_, _, hf, _⟩ := Phase.frame?_of_firstSpan? h
  refine Classical.byContradiction fun hne => ?_
  exact not_opening_row hne es ((Phase.opening_infix_of_frame? hf).trans hp.isInfix)

/-- What is taken of a row is its frame. -/
theorem firstSpan?_row (hs : ∀ x ∈ singles, x.isSingle) (he : ¬e.isSingle) (es : List ChallengeElement) :
    Phase.awaitingChallenge.firstSpan? (row (singles ++ e :: es)) = some ⟨.challenge, row (singles ++ [e]), row es⟩ := by
  have hframe := frame?_row hs he es
  have hwatched : SpanKind.challenge ∈ watched .awaitingChallenge := List.mem_cons_self
  obtain ⟨span, hspan⟩ := Phase.exists_firstSpan? hwatched hframe
  have hkind := kind_of_firstSpan? (List.prefix_refl _) hspan
  obtain ⟨_, dropped, hf, _⟩ := Phase.frame?_of_firstSpan? hspan
  rw [hkind, hframe] at hf
  obtain ⟨_, hbytes, hrest⟩ := Frame.mk.inj (Option.some.inj hf)
  rw [hspan, hbytes, hrest, ← hkind]

/-- Nothing is taken of single tags. -/
theorem firstSpan?_singles (hs : ∀ x ∈ singles, x.isSingle) : Phase.awaitingChallenge.firstSpan? (row singles) = none := by
  refine Option.eq_none_iff_forall_not_mem.mpr fun span hspan => ?_
  have hkind := kind_of_firstSpan? (List.prefix_refl _) hspan
  obtain ⟨_, dropped, hf, _⟩ := Phase.frame?_of_firstSpan? hspan
  rw [hkind] at hf
  obtain ⟨_, _, hb, content, hclosed⟩ := Delimiters.eq_of_frame? hf
  refine not_closing_row hs ⟨dropped ++ (SpanKind.challenge.delimiters.opening ++ content), span.rest, ?_⟩
  rw [hb, hclosed]
  simp

/-- A span of a row is answered with what is in its first challenge. -/
theorem answer_group (hs : ∀ x ∈ singles, x.isSingle) :
    SpanKind.challenge.answer (row (singles ++ [e])) = .ok (.pass ⟨if !singles.isEmpty then [] else e.payload⟩) := by
  cases singles with
  | nil => simp [SpanKind.answer, decode_row]
  | cons x singles => simp [SpanKind.answer, decode_row, payload_of_isSingle (hs x List.mem_cons_self)]

/-- The single tags at the end of a row are those at the end of what follows an end tag in it. -/
theorem rtakeWhile_group (he : ¬e.isSingle) :
    (singles ++ e :: es).rtakeWhile isSingle = es.rtakeWhile isSingle := by
  induction es using List.reverseRecOn with
  | nil => rw [List.rtakeWhile_concat_neg _ _ _ he, List.rtakeWhile_nil]
  | append_singleton es last ih =>
    rw [← List.cons_append, ← List.append_assoc, List.rtakeWhile_concat, List.rtakeWhile_concat, ih]

end

/-- A row is read alike however it is cut. Behind single tags that have not been taken, each end tag makes one answer, and the
single tags behind the last one stay unread. -/
theorem read_row (es : List ChallengeElement) {singles : List ChallengeElement} (hs : ∀ x ∈ singles, x.isSingle) :
    Phase.Unambiguous .awaitingChallenge (row (singles ++ es)) ∧
      Phase.awaitingChallenge.read (row (singles ++ es)) =
        ⟨(handed (!singles.isEmpty) es).map .pass, none, .awaitingChallenge, row ((singles ++ es).rtakeWhile isSingle)⟩ := by
  induction es generalizing singles with
  | nil =>
    have hquiet := firstSpan?_singles hs
    rw [List.append_nil, List.rtakeWhile_eq_self_iff.mpr hs]
    exact ⟨.quiet hquiet, Phase.read_of_none hquiet⟩
  | cons e es ih =>
    by_cases he : e.isSingle
    · have hsingles : ∀ x ∈ singles ++ [e], x.isSingle :=
        List.forall_mem_append.mpr ⟨hs, List.forall_mem_singleton.mpr he⟩
      have hmore := ih hsingles
      have hbehind : (!(singles ++ [e]).isEmpty) = true := by cases singles <;> rfl
      rw [List.append_assoc, List.singleton_append, hbehind] at hmore
      rw [handed, if_pos he]
      exact hmore
    · have hspan := firstSpan?_row hs he es
      have hanswer := answer_group (e := e) hs
      obtain ⟨hrest, hread⟩ := ih (List.forall_mem_nil _)
      refine ⟨.taken hspan (fun arrived early hp hearly => ?_) fun _ _ => hrest, ?_⟩
      · -- Spans of one kind do not move while more arrives, and only challenges are taken.
        have hkind := kind_of_firstSpan? hp hearly
        obtain ⟨more, hmore⟩ := hp
        rw [← hmore] at hspan
        rw [hkind, (Phase.firstSpan?_append_of_kind hearly hspan hkind).1]
      · rw [Phase.read_of_ok hspan hanswer, rtakeWhile_group he]
        simp only [List.nil_append] at hread
        rw [hread]
        simp [Reading.following, handed, he]

/-- One challenge is handed out for each end tag. -/
theorem length_handed (behind : Bool) (es : List ChallengeElement) :
    (handed behind es).length = es.countP fun e => !e.isSingle := by
  induction es generalizing behind with
  | nil => rfl
  | cons e es ih =>
    by_cases he : e.isSingle <;> simp [handed, he, ih]

/-- Each challenge of a row is handed out exactly if none is a single tag. -/
theorem handed_eq_map_iff {es : List ChallengeElement} :
    handed false es = es.map (fun e => ⟨e.payload⟩) ↔ ∀ e ∈ es, ¬e.isSingle := by
  constructor
  · intro h
    have hlen := congrArg List.length h
    rw [length_handed, List.length_map, List.countP_eq_length] at hlen
    intro e he hsingle
    have hend := hlen e he
    rw [hsingle] at hend
    cases hend
  · intro h
    induction es with
    | nil => rfl
    | cons e es ih =>
      obtain ⟨he, hes⟩ := List.forall_mem_cons.mp h
      rw [handed, if_neg he, ih hes]
      rfl

end ChallengeElement

/-! ## What a session makes of a row -/

namespace Session

open ChallengeElement (row handed)

/-- A session that awaits challenges, with nothing in its buffer, reads a row of them however it is cut. -/
theorem calls_row {s : Session} (h : s.Ready) (hphase : s.phase = .awaitingChallenge) (hempty : s.buffer = .empty)
    {es : List ChallengeElement} {pieces : List Bytes} (hpieces : pieces.flatten = row es) :
    ∃ t actions, s.calls (pieces.map fun piece => .handle (.received piece)) = (t, actions) ∧
      actions.flatten = (handed false es).map .challenge ∧ t.Ready ∧ t.phase = .awaitingChallenge ∧
      t.buffer.bytes = row (es.rtakeWhile ChallengeElement.isSingle) := by
  obtain ⟨hunambiguous, hread⟩ := ChallengeElement.read_row es (List.forall_mem_nil _)
  have hpiecewise : s.phase.readPieces s.buffer.bytes pieces =
      ⟨(handed false es).map .pass, none, .awaitingChallenge, row (es.rtakeWhile ChallengeElement.isSingle)⟩ := by
    rw [hphase, hempty]
    rw [List.nil_append, ← hpieces] at hunambiguous hread
    exact (Phase.readPieces_eq_read pieces rfl hunambiguous).trans hread
  obtain ⟨t, actions, hcalls, hactions, hready, hrest⟩ := calls_received_of_ok pieces h hpiecewise rfl
  refine ⟨t, actions, hcalls, ?_, hready, hrest⟩
  rw [hactions, List.map_map]
  rfl

/-- The uses of a session in which it announces a mechanism. -/
def announcing : List Use :=
  [.call (.handle .connected),
    .call (.handle (.received (Utf8.ofString "<stream:features><mechanism>DIGEST-MD5</mechanism></stream:features>")))]

/-- After its announcement a session awaits challenges, with nothing in its buffer. -/
theorem awaiting_of_announcing (id : String) (credentials : Credentials) (nonce : String) :
    ((new id credentials nonce).uses announcing).1.phase = .awaitingChallenge ∧
      ((new id credentials nonce).uses announcing).1.buffer = .empty := by
  let bytes := Utf8.ofString "<stream:features><mechanism>DIGEST-MD5</mechanism></stream:features>"
  let s := ((new id credentials nonce).call (.handle .connected)).1
  have hspan : (s.receiving bytes).nextSpan? = some ⟨.features, bytes, []⟩ := by
    rw [nextSpan?_eq]
    have hfirst : Phase.awaitingFeatures.firstSpan? bytes = some ⟨.features, bytes, []⟩ := by decide +kernel
    exact hfirst
  have hcall : ((new id credentials nonce).uses announcing).1 = (s.receiving bytes).drain.close.1 :=
    congrArg Prod.fst (call_received rfl (Or.inl rfl) bytes)
  rw [hcall, drain_of_ok hspan answer_features, drain_of_none rfl]
  exact ⟨rfl, rfl⟩

/-- Not every row of challenges comes to one challenge for each element: a single tag is taken together with what is behind
it, and the payload of that is lost. -/
theorem challenges_of_row_false :
    ¬∀ (id : String) (credentials : Credentials) (nonce : String) (us : List Use) (es : List ChallengeElement)
        (pieces : List Bytes), es ≠ [] → ((new id credentials nonce).uses us).1.phase = .awaitingChallenge →
        ((new id credentials nonce).uses us).1.buffer = .empty → pieces.flatten = row es →
        (((new id credentials nonce).uses us).1.calls (pieces.map fun piece => .handle (.received piece))).2.flatten =
          es.map fun e => .challenge ⟨e.payload⟩ := by
  intro h
  let es : List ChallengeElement := [.single, .around [97]]
  obtain ⟨hphase, hempty⟩ := awaiting_of_announcing "id" ⟨"host", "user", "password"⟩ "nonce"
  have hwaiting : ((new "id" ⟨"host", "user", "password"⟩ "nonce").uses announcing).1.Waiting := Or.inr hphase
  have hpieces : [row es].flatten = row es := List.flatten_singleton
  obtain ⟨t, actions, hcalls, hactions, _⟩ :=
    calls_row ⟨hwaiting, hwaiting.held?_of_uses⟩ hphase hempty hpieces
  have hclaim := h "id" ⟨"host", "user", "password"⟩ "nonce" announcing es [row es] (List.cons_ne_nil _ _) hphase hempty hpieces
  rw [hcalls, hactions] at hclaim
  have hlength := congrArg List.length hclaim
  revert hlength
  decide

/-- What comes of a row of challenges, in three parts. Whatever use was made of a new session, if it awaits challenges and its
buffer is empty, then of a row of challenges that it receives in pieces, wherever the row is cut:
1. The actions are challenges alone, one for each element with an end tag, in order. It has the payload of the element, or none
   if single tags stand directly in front of it.
2. The session still awaits challenges and holds no error, and its buffer has the single tags behind the last end tag.
3. So there is exactly one challenge for each element, in order, with its payload, if no element is a single tag, and only
   then. -/
theorem challenges_of_row (id : String) (credentials : Credentials) (nonce : String) (us : List Use)
    (es : List ChallengeElement) (pieces : List Bytes)
    (hphase : ((new id credentials nonce).uses us).1.phase = .awaitingChallenge)
    (hempty : ((new id credentials nonce).uses us).1.buffer = .empty) (hpieces : pieces.flatten = row es) :
    let run := ((new id credentials nonce).uses us).1.calls (pieces.map fun piece => .handle (.received piece))
    run.2.flatten = (handed false es).map .challenge ∧
      (run.1.phase = .awaitingChallenge ∧ run.1.held? = none ∧
        run.1.buffer.bytes = row (es.rtakeWhile ChallengeElement.isSingle)) ∧
      (run.2.flatten = es.map (fun e => .challenge ⟨e.payload⟩) ↔ ∀ e ∈ es, ¬e.isSingle) := by
  intro run
  have hwaiting : ((new id credentials nonce).uses us).1.Waiting := Or.inr hphase
  obtain ⟨t, actions, hcalls, hactions, hready, hawaiting, hbuffer⟩ :=
    calls_row ⟨hwaiting, hwaiting.held?_of_uses⟩ hphase hempty hpieces
  obtain ⟨rfl, rfl⟩ : run.1 = t ∧ run.2 = actions := Prod.mk.inj hcalls
  refine ⟨hactions, ⟨hawaiting, hready.held, hbuffer⟩, ?_⟩
  have hinjective : Function.Injective (List.map Action.challenge) :=
    List.map_injective_iff.mpr fun _ _ h => Action.challenge.inj h
  have hmap : es.map (fun e => Action.challenge ⟨e.payload⟩) = (es.map fun e => ⟨e.payload⟩).map .challenge :=
    List.map_map.symm
  rw [hactions, hmap, hinjective.eq_iff, ChallengeElement.handed_eq_map_iff]

/-- A single tag, a challenge around a payload and another single tag, cut inside the challenge: one challenge without a payload
is handed out, and the last tag stays in the buffer. -/
theorem challenges_of_row_mixed :
    let s := ((new "id" ⟨"host", "user", "password"⟩ "nonce").uses announcing).1
    let es : List ChallengeElement := [.single, .around [97], .single]
    let pieces := [Utf8.ofString "<challenge/><challenge>YQ", Utf8.ofString "==</challenge><challenge/>"]
    let run := s.calls (pieces.map fun piece => .handle (.received piece))
    s.phase = .awaitingChallenge ∧ s.buffer = .empty ∧ pieces.flatten = row es ∧ run.2.flatten = [.challenge ⟨[]⟩] ∧
      run.1.buffer.bytes = Utf8.ofString "<challenge/>" := by
  intro s es pieces run
  obtain ⟨hphase, hempty⟩ := awaiting_of_announcing "id" ⟨"host", "user", "password"⟩ "nonce"
  have hpieces : pieces.flatten = row es := by decide +kernel
  obtain ⟨hactions, ⟨_, _, hbuffer⟩, _⟩ :=
    challenges_of_row "id" ⟨"host", "user", "password"⟩ "nonce" announcing es pieces hphase hempty hpieces
  exact ⟨hphase, hempty, hpieces, hactions, hbuffer.trans (by decide +kernel)⟩

end Session

end StreamAuth
