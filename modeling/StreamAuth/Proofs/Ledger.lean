import StreamAuth.Proofs.Output

/-!
# What becomes of the bytes that arrive

Every byte that a session has received is in a span that was taken, in front of one, or still in the buffer. `ledger` is the
history of the spans, with the phase in which each of them was taken and the bytes that were given up in front of it; `Accounts`
says that it accounts for the bytes between two states, and adds up along a run (`Accounts.trans`).
-/

namespace StreamAuth

open Session (watched)

/-! ## Takings -/

/-- A span that was taken, and what was given up for it. -/
structure Taking where
  /-- What was waited for when the span was taken. -/
  phase : Phase
  /-- The kind of the span. -/
  kind : SpanKind
  /-- The bytes in front of the span. -/
  dropped : Bytes
  /-- The span, with both of its delimiters. -/
  span : Bytes
  deriving DecidableEq

namespace Taking

/-- The bytes that left the buffer. -/
def bytes (t : Taking) : Bytes :=
  t.dropped ++ t.span

/-- A taking of a span that was watched for, with no other such span in what was given up for it. -/
structure Sound (t : Taking) : Prop where
  watched : t.kind ∈ watched t.phase
  encloses : t.kind.delimiters.Encloses t.span
  nothing_lost : ∀ kind ∈ Session.watched t.phase, ¬kind.delimiters.HasSpan t.dropped

end Taking

namespace Session

/-- What is taken out of the buffer of a session by a span. What stands in front of the span is what the lengths leave over. -/
def taking (s : Session) (span : Span SpanKind) : Taking :=
  ⟨s.phase, span.kind, s.buffer.bytes.take (s.buffer.length - (span.bytes ++ span.rest).length), span.bytes⟩

/-- The span that is taken next is a sound taking, and splits the buffer. -/
theorem sound_taking {s : Session} {span : Span SpanKind} (h : s.nextSpan? = some span) :
    (s.taking span).Sound ∧ s.buffer.bytes = (s.taking span).bytes ++ span.rest := by
  obtain ⟨hk, dropped, hf, hmin⟩ := Phase.frame?_of_firstSpan? (s.nextSpan?_eq ▸ h)
  obtain ⟨_, _, hb, _, henc⟩ := Delimiters.frame?_eq_some_iff.mp hf
  have hdropped : (s.taking span).dropped = dropped := by
    simp only [taking, ReceiveBuffer.length, hb, List.append_assoc]
    rw [List.length_append, Nat.add_sub_cancel, List.take_left]
  refine ⟨⟨hk, henc, fun kind hkind => ?_⟩, ?_⟩
  · rw [hdropped]
    refine not_hasSpan_of_minimal kind.opening_ne_nil kind.closing_ne_nil ?_ (hmin kind hkind)
    rw [hb, List.append_assoc]
    exact List.prefix_append _ _
  · rw [Taking.bytes, hdropped]
    exact hb

/-! ## The history of a run -/

/-- The takings of a drain, in order. -/
def takings (s : Session) : List Taking :=
  match _h : s.nextSpan? with
  | none => []
  | some span =>
    s.taking span ::
      match _hr : (s.take span).react span.bytes span.kind with
      | .error _ => []
      | .ok (t, _) => t.takings
termination_by s.buffer.length
decreasing_by
  obtain ⟨_, _, hf⟩ := frame?_of_nextSpan? _h
  rw [buffer_of_react _hr]
  exact Delimiters.length_rest_lt hf

theorem takings_of_none {s : Session} (h : s.nextSpan? = none) : s.takings = [] := by
  rw [takings]
  split
  · rfl
  · rename_i hs
    cases h.symm.trans hs

theorem takings_of_ok {s : Session} {span : Span SpanKind} {a : Answer} (h : s.nextSpan? = some span)
    (ha : span.kind.answer span.bytes = .ok a) : s.takings = s.taking span :: ((s.take span).give a).takings := by
  have hr := (react_eq_ok_iff (s := s.take span)).mpr ⟨a, ha, rfl, rfl⟩
  rw [takings]
  split
  · rename_i hs
    cases h.symm.trans hs
  · rename_i hs
    cases h.symm.trans hs
    split
    · rename_i hr'
      cases hr.symm.trans hr'
    · rename_i hr'
      cases hr.symm.trans hr'
      rfl

/-- The bytes that a call brings. -/
def Operation.arrived : Operation → Bytes
  | .handle (.received bytes) => bytes
  | _ => []

/-- The takings of one call. Only bytes that arrive bring about any, and only while the session waits for a stanza. -/
def takingsOf (s : Session) : Operation → List Taking
  | .handle (.received bytes) => (s.receiving bytes).takings
  | _ => []

/-- The takings of a run of calls. -/
def ledger (s : Session) : List Operation → List Taking
  | [] => []
  | op :: ops => s.takingsOf op ++ (s.call op).1.ledger ops

/-- The bytes that a run of calls brings. -/
def arrivals (ops : List Operation) : Bytes :=
  ops.flatMap Operation.arrived

/-! ## Accounts -/

/-- Between two states of a session some bytes have arrived, and the takings account for what has become of them. -/
structure Accounts (s : Session) (arrived : Bytes) (takings : List Taking) (t : Session) : Prop where
  bytes : s.buffer.bytes ++ arrived = takings.flatMap Taking.bytes ++ t.buffer.bytes
  received : t.bytesReceived = s.bytesReceived + arrived.length
  extracted : t.spansExtracted = s.spansExtracted + takings.length
  sound : ∀ taking ∈ takings, taking.Sound

/-- Nothing arrives and nothing is taken as long as the buffer and the counters stand still. -/
theorem Accounts.still {s t : Session} (hb : t.buffer = s.buffer) (hr : t.bytesReceived = s.bytesReceived)
    (he : t.spansExtracted = s.spansExtracted) : s.Accounts [] [] t :=
  ⟨by rw [hb, List.append_nil]; rfl, hr, he, nofun⟩

/-- Accounts add up. -/
theorem Accounts.trans {s t u : Session} {arrived more : Bytes} {takings later : List Taking} (h : s.Accounts arrived takings t)
    (h' : t.Accounts more later u) : s.Accounts (arrived ++ more) (takings ++ later) u := by
  refine ⟨?_, ?_, ?_, ?_⟩
  · rw [← List.append_assoc, h.bytes, List.append_assoc, h'.bytes, List.flatMap_append, List.append_assoc]
  · rw [h'.received, h.received, List.length_append, Nat.add_assoc]
  · rw [h'.extracted, h.extracted, List.length_append, Nat.add_assoc]
  · intro taking hm
    rcases List.mem_append.mp hm with hm | hm
    · exact h.sound taking hm
    · exact h'.sound taking hm

/-- A turn of the loop accounts for the span that it takes. -/
theorem accounts_take {s : Session} {span : Span SpanKind} (h : s.nextSpan? = some span) (a : Answer) :
    s.Accounts [] [s.taking span] ((s.take span).give a) := by
  obtain ⟨hsound, hb⟩ := sound_taking h
  refine ⟨?_, ?_, ?_, ?_⟩
  · rw [List.append_nil, hb, List.flatMap_singleton]
    cases a <;> rfl
  · cases a <;> rfl
  · cases a <;> rfl
  · intro taking hm
    rw [List.mem_singleton.mp hm]
    exact hsound

/-- A drain that is not ended by an error accounts for the spans that it takes. -/
theorem Drains.accounts {s : Session} {run : Run} (h : Drains s run) (he : run.error? = none) :
    s.Accounts [] s.takings run.session := by
  induction h with
  | quiet hn =>
    rw [takings_of_none hn]
    exact .still rfl rfl rfl
  | fatal => cases he
  | answered hs ha _ ih =>
    rw [takings_of_ok hs ha]
    exact (accounts_take hs _).trans (ih he)

/-- Bytes that arrive are accounted for by being in the buffer. -/
theorem accounts_receiving (s : Session) (bytes : Bytes) : s.Accounts bytes [] (s.receiving bytes) :=
  ⟨rfl, rfl, rfl, nofun⟩

theorem error?_of_close_ne_closed {run : Run} (h : run.close.1.phase ≠ .closed) :
    run.error? = none ∧ run.close.1 = run.session := by
  obtain ⟨t, actions, error?⟩ := run
  cases error? with
  | none => exact ⟨rfl, rfl⟩
  | some e => cases actions <;> exact absurd rfl h

variable {credentials : Credentials} {nonce : String}

/-- A call that leaves the session open accounts for the bytes that it brings. -/
theorem accounts_call {s : Session} {o : Output} (hs : s.Shows credentials nonce o) {op : Operation}
    (hp : (s.call op).1.phase ≠ .closed) : s.Accounts op.arrived (s.takingsOf op) (s.call op).1 := by
  cases op with
  | close => exact absurd rfl hp
  | takeError => exact .still rfl rfl rfl
  | handle event =>
    rw [call] at hp ⊢
    cases hh : s.held? with
    | some e =>
      rw [handle_of_held hh] at hp
      exact absurd (hs.held (by rw [hh]; exact Option.some_ne_none e)) hp
    | none =>
      rw [handle_of_free hh] at hp ⊢
      obtain ⟨he, ht⟩ := error?_of_close_ne_closed hp
      rw [ht]
      rcases advance_cases s event with ⟨rfl, _, ha⟩ | ⟨bytes, rfl, _, ha⟩ | ⟨e, ha⟩
      · rw [ha]
        exact .still rfl rfl rfl
      · rw [ha] at he ⊢
        have h := (accounts_receiving s bytes).trans ((drains_drain _).accounts he)
        rwa [List.append_nil, List.nil_append] at h
      · rw [ha] at he
        cases he

/-- A run that leaves the session open accounts for the bytes that it brings. -/
theorem accounts_calls (ops : List Operation) {s : Session} {o : Output} (hs : s.Shows credentials nonce o)
    (hp : (s.calls ops).1.phase ≠ .closed) : s.Accounts (arrivals ops) (s.ledger ops) (s.calls ops).1 := by
  induction ops generalizing s o with
  | nil => exact .still rfl rfl rfl
  | cons op ops ih =>
    obtain ⟨o', ht, _⟩ := shows_call hs op
    have hp' : (s.call op).1.phase ≠ .closed := by
      intro hc
      obtain ⟨held?, hu⟩ := calls_of_closed hc (ht.closed hc) ops
      refine hp ?_
      rw [calls, hu]
      exact hc
    exact (accounts_call hs hp').trans (ih ht hp)

/-- Features that offer one mechanism are answered with its announcement. -/
theorem answer_features :
    SpanKind.features.answer (Utf8.ofString "<stream:features><mechanism>DIGEST-MD5</mechanism></stream:features>") =
      .ok (.announce .digestMd5) := by
  have hmechanism : Xml.Written [⟨"mechanism", [], "DIGEST-MD5", []⟩] "<mechanism>DIGEST-MD5</mechanism>".toList :=
    .element (by decide) .nil (by decide) .nil .nil
  have hwritten : Xml.Written [⟨"stream:features", [], "", [⟨"mechanism", [], "DIGEST-MD5", []⟩]⟩]
      "<stream:features><mechanism>DIGEST-MD5</mechanism></stream:features>".toList :=
    .element (by decide) .nil (by decide) hmechanism .nil
  have hselect : Mechanism.select (offerOf ⟨"stream:features", [], "", [⟨"mechanism", [], "DIGEST-MD5", []⟩]⟩) = .digestMd5 := by
    decide +kernel
  exact SpanKind.answer_features_of_written hwritten hselect (by decide)

/-- Where the bytes are that a session has received, in four parts. After every run of calls that leaves a new session open:
1. All bytes that have arrived are, in order, the takings of the run with what was given up in front of each, and the buffer.
2. The counter of bytes counts them.
3. The counter of spans counts the takings.
4. Each taking is sound: its span begins with the opening delimiter of a kind that was watched for when it was taken, it ends
   with the first closing one after it, and no span of any such kind was given up for it. -/
theorem ledger_of_calls (id : String) (credentials : Credentials) (nonce : String) (ops : List Operation)
    (hopen : ((new id credentials nonce).calls ops).1.phase ≠ .closed) :
    let ledger := (new id credentials nonce).ledger ops
    let t := ((new id credentials nonce).calls ops).1
    arrivals ops = ledger.flatMap Taking.bytes ++ t.buffer.bytes ∧
      t.stats.bytesReceived = (arrivals ops).length ∧
      t.stats.spansExtracted = ledger.length ∧
      ∀ taking ∈ ledger, taking.Sound := by
  intro ledger t
  have hnew : (new id credentials nonce).Shows credentials nonce .empty := shows_new id
  have h := accounts_calls ops hnew hopen
  exact ⟨h.bytes, h.received.trans (Nat.zero_add _), h.extracted.trans (Nat.zero_add _), h.sound⟩

/-- The ledger of a run that takes features, behind a blank and in front of the beginning of a challenge. -/
theorem ledger_of_calls_features :
    let s := new "id" ⟨"host", "user", "password"⟩ "nonce"
    let bytes := Utf8.ofString " <stream:features><mechanism>DIGEST-MD5</mechanism></stream:features><chall"
    let ops := [.handle .connected, .handle (.received bytes)]
    (s.calls ops).1.phase ≠ .closed ∧ arrivals ops = (s.ledger ops).flatMap Taking.bytes ++ (s.calls ops).1.buffer.bytes := by
  intro s bytes ops
  have hopen : (s.calls ops).1.phase ≠ .closed := by
    have hspan : ((s.call (.handle .connected)).1.receiving bytes).nextSpan? =
        some ⟨.features, Utf8.ofString "<stream:features><mechanism>DIGEST-MD5</mechanism></stream:features>",
          Utf8.ofString "<chall"⟩ := by
      rw [nextSpan?_eq]
      decide +kernel
    have hcall : (s.calls ops).1 = ((s.call (.handle .connected)).1.receiving bytes).drain.close.1 :=
      congrArg Prod.fst (call_received rfl (Or.inl rfl) bytes)
    have hquiet : Phase.awaitingChallenge.firstSpan? (Utf8.ofString "<chall") = none := by decide +kernel
    rw [hcall, drain_of_ok hspan answer_features, drain_of_none]
    · nofun
    · exact hquiet
  exact ⟨hopen, (ledger_of_calls "id" _ "nonce" ops hopen).1⟩

end Session

end StreamAuth
