import StreamAuth.Proofs.Course
import StreamAuth.Proofs.Ledger
import StreamAuth.Proofs.Stanzas

/-!
# What came of the spans

The spans that a session has taken stand in its ledger. In the order in which they were taken, they are the features that its
mechanism was announced for, the challenges that it handed out, and at the end the one span that was fatal, if the session was
closed by one. `History` says so between two states, and adds up along a run like `Accounts`.
-/

namespace StreamAuth

namespace Taking

/-- What came of the span: its answer, or the error that it closed the session with. -/
def verdict (t : Taking) : Except Error Answer :=
  t.kind.answer t.span

/-- Whether the span closed the session. -/
def isFatal (t : Taking) : Bool :=
  match t.verdict with
  | .error _ => true
  | .ok _ => false

end Taking

/-- The verdicts on features that led to the announcement of a mechanism, on challenges, and on a fatal span, in this order. -/
def verdicts (announced : List Mechanism) (challenges : List Challenge) (fatal? : Option Error) :
    List (Except Error Answer) :=
  announced.map (fun m => .ok (.announce m)) ++ challenges.map (fun c => .ok (.pass c)) ++ fatal?.toList.map .error

/-- The fatal spans are those whose verdict is an error. -/
theorem countP_isFatal {takings : List Taking} {announced : List Mechanism} {challenges : List Challenge}
    {fatal? : Option Error} (h : takings.map Taking.verdict = verdicts announced challenges fatal?) :
    takings.countP Taking.isFatal = fatal?.toList.length := by
  have hcount : takings.countP Taking.isFatal =
      (takings.map Taking.verdict).countP fun v => match v with | .error _ => true | .ok _ => false := by
    rw [List.countP_map]
    rfl
  rw [hcount, h]
  cases fatal? <;> simp [verdicts, List.countP_map, Function.comp_def]

theorem length_of_verdicts {takings : List Taking} {announced : List Mechanism} {challenges : List Challenge}
    {fatal? : Option Error} (h : takings.map Taking.verdict = verdicts announced challenges fatal?) :
    takings.length = announced.length + challenges.length + fatal?.toList.length := by
  have hlength := congrArg List.length h
  simpa [verdicts, Nat.add_assoc] using hlength

namespace Session

variable {credentials : Credentials} {nonce : String}

theorem takings_of_error {s : Session} {span : Span SpanKind} {e : Error} (h : s.nextSpan? = some span)
    (ha : span.kind.answer span.bytes = .error e) : s.takings = [s.taking span] := by
  have hr := (react_eq_error_iff (s := s.take span)).mpr ha
  rw [takings]
  split
  · rename_i hs
    cases h.symm.trans hs
  · rename_i hs
    cases h.symm.trans hs
    split
    · rfl
    · rename_i hr'
      cases hr.symm.trans hr'

/-! ## Histories -/

/-- Between two states of a session, some spans were taken: features if a mechanism was announced in between, then the
challenges that were handed out, and then the one that was fatal. No challenge is handed out without a mechanism. -/
structure History (s : Session) (challenges : List Challenge) (takings : List Taking) (fatal? : Option Error) (t : Session) :
    Prop where
  spans : ∃ announced, t.mechanism?.toList = s.mechanism?.toList ++ announced ∧
    takings.map Taking.verdict = verdicts announced challenges fatal?
  mechanism : challenges ≠ [] → t.mechanism? ≠ none

/-- Nothing happens as long as the mechanism stays. -/
theorem History.still {s t : Session} (h : t.mechanism? = s.mechanism?) : s.History [] [] none t :=
  ⟨⟨[], by rw [h, List.append_nil], rfl⟩, fun hne => absurd rfl hne⟩

/-- The session at the end of a history counts by its mechanism alone. -/
theorem History.congr {s t u : Session} {challenges : List Challenge} {takings : List Taking} {fatal? : Option Error}
    (h : s.History challenges takings fatal? t) (hm : u.mechanism? = t.mechanism?) : s.History challenges takings fatal? u :=
  ⟨hm ▸ h.spans, hm ▸ h.mechanism⟩

/-- Histories add up as long as nothing fatal has happened. -/
theorem History.trans {s t u : Session} {challenges more : List Challenge} {takings later : List Taking} {fatal? : Option Error}
    (h : s.History challenges takings none t) (h' : t.History more later fatal? u) :
    s.History (challenges ++ more) (takings ++ later) fatal? u := by
  obtain ⟨announced, ht, hv⟩ := h.spans
  obtain ⟨announced', hu, hv'⟩ := h'.spans
  refine ⟨⟨announced ++ announced', by rw [hu, ht, List.append_assoc], ?_⟩, fun hne => ?_⟩
  · rw [List.map_append, hv, hv']
    by_cases hc : challenges = []
    · simp [verdicts, hc]
    · -- A mechanism is announced already, and no second one is.
      have hnone : announced' = [] := by
        obtain ⟨m, hm⟩ := Option.ne_none_iff_exists'.mp (h.mechanism hc)
        have hlength := congrArg List.length hu
        rw [hm] at hlength
        cases hmu : u.mechanism? <;> simp [hmu] at hlength
        exact hlength
      simp [verdicts, hnone]
  · by_cases hc : challenges = []
    · exact h'.mechanism (by simpa [hc] using hne)
    · obtain ⟨m, hm⟩ := Option.ne_none_iff_exists'.mp (h.mechanism hc)
      intro hnone
      rw [hm, hnone] at hu
      cases hu

/-- A session that waits for features is one that waits and has no mechanism. -/
theorem Shows.features_iff {s : Session} {o : Output} (h : s.Shows credentials nonce o) (hw : s.Waiting) :
    s.phase = .awaitingFeatures ↔ s.mechanism? = none := by
  rw [h.mechanism]
  refine ⟨fun hp => (h.features hp).2, fun hnone => hw.resolve_right fun hp => h.challenge hp hnone⟩

/-- A drain has the history of the spans that it takes, with the error that it ends on at the end. -/
theorem Drains.history {s : Session} {run : Run} (h : Drains s run) (hw : s.Waiting)
    (hm : s.phase = .awaitingFeatures ↔ s.mechanism? = none) :
    s.History (run.actions.filterMap challengeOf?) s.takings run.error? run.session := by
  induction h with
  | quiet hn =>
    rw [takings_of_none hn]
    exact .still rfl
  | fatal hspan ha =>
    rw [takings_of_error hspan ha]
    exact ⟨⟨[], (List.append_nil _).symm, congrArg ([·]) ha⟩, fun hne => absurd rfl hne⟩
  | @answered s span a run hspan ha _ ih =>
    rw [takings_of_ok hspan ha]
    obtain ⟨hk, _⟩ := Phase.frame?_of_firstSpan? (s.nextSpan?_eq ▸ hspan)
    have hverdict : [s.taking span].map Taking.verdict = [.ok a] := congrArg ([·]) ha
    rcases Phase.answer_of_watched hk ha with ⟨hp, _, m, _, rfl⟩ | ⟨hp, _, c, rfl⟩
    · have hturn : s.History [] [s.taking span] none ((s.take span).give (.announce m)) :=
        ⟨⟨[m], by rw [hm.mp hp]; rfl, hverdict⟩, fun hne => absurd rfl hne⟩
      exact hturn.trans (ih (Or.inr rfl) ⟨nofun, nofun⟩)
    · have hturn : s.History [c] [s.taking span] none ((s.take span).give (.pass c)) := by
        refine ⟨⟨[], (List.append_nil _).symm, hverdict⟩, fun _ hnone => ?_⟩
        cases hp.symm.trans (hm.mpr hnone)
      exact hturn.trans (ih hw hm)

/-- The end of a call changes nothing of its history. -/
theorem History.close {s : Session} {run : Run} {takings : List Taking}
    (h : s.History (run.actions.filterMap challengeOf?) takings run.error? run.session) :
    s.History ((returned run.close.2).filterMap challengeOf?) takings run.error? run.close.1 := by
  obtain ⟨_, _, _, ht⟩ := run.session_close
  rw [run.sameOutput_close.challenges, ht]
  exact h.congr rfl

/-- Nothing is taken by a session that does not wait for a stanza. -/
theorem takingsOf_eq_nil {s : Session} (h : ¬s.Waiting) (op : Operation) : s.takingsOf op = [] := by
  cases op with
  | close => rfl
  | takeError => rfl
  | handle event =>
    cases event with
    | connected => rfl
    | failed fault => rfl
    | received bytes =>
      refine takings_of_none ?_
      have hp : (s.receiving bytes).phase = s.phase := rfl
      rw [nextSpan?_eq, hp]
      cases hs : s.phase with
      | awaitingFeatures => exact absurd (Or.inl hs) h
      | awaitingChallenge => exact absurd (Or.inr hs) h
      | connecting => exact Phase.Idle.firstSpan?_eq_none nofun
      | closed => exact Phase.Idle.firstSpan?_eq_none nofun

/-- What an event comes to: a drain of what has arrived, if it brings bytes that are waited for; and otherwise nothing is taken,
and either the stream is opened, or an error is returned and no counter changes. -/
theorem handle_cases {s : Session} {o : Output} (hs : s.Shows credentials nonce o) (event : Event) :
    (∃ bytes, event = .received bytes ∧ s.Waiting ∧ s.handle event = (s.receiving bytes).drain.close) ∨
      (s.takingsOf (.handle event) = [] ∧
        (s.handle event = (s.openStream.1, .ok [s.openStream.2]) ∨
          ∃ phase buffer held? e,
            s.handle event = ({ s with phase := phase, buffer := buffer, held? := held? }, .error e))) := by
  cases hh : s.held? with
  | some e =>
    have hp := hs.held (by rw [hh]; exact Option.some_ne_none e)
    exact Or.inr ⟨takingsOf_eq_nil (fun hw => hw.ne_closed hp) _, Or.inr ⟨_, _, _, e, handle_of_held hh event⟩⟩
  | none =>
    by_cases hreceived : ∃ bytes, event = .received bytes ∧ s.Waiting
    · obtain ⟨bytes, rfl, hw⟩ := hreceived
      exact Or.inl ⟨bytes, rfl, hw, call_received hh hw bytes⟩
    · have ht : s.takingsOf (.handle event) = [] := by
        cases event with
        | connected => rfl
        | failed fault => rfl
        | received bytes => exact takingsOf_eq_nil (fun hw => hreceived ⟨bytes, rfl, hw⟩) _
      rw [handle_of_free hh]
      rcases advance_cases s event with ⟨_, _, ha⟩ | ⟨bytes, he, hw, _⟩ | ⟨e, ha⟩
      · exact Or.inr ⟨ht, Or.inl (by rw [ha]; rfl)⟩
      · exact absurd ⟨bytes, he, hw⟩ hreceived
      · exact Or.inr ⟨ht, Or.inr ⟨_, _, _, e, by rw [ha]; rfl⟩⟩

/-- A call has the history of the spans that it takes. If one of them is fatal, it closes the session. -/
theorem history_call {s : Session} {o : Output} (hs : s.Shows credentials nonce o) (op : Operation) :
    ∃ fatal?, s.History ((returned (s.call op).2).filterMap challengeOf?) (s.takingsOf op) fatal? (s.call op).1 ∧
      ((s.call op).1.phase ≠ .closed → fatal? = none) := by
  cases op with
  | close => exact ⟨none, .still rfl, fun _ => rfl⟩
  | takeError => exact ⟨none, .still rfl, fun _ => rfl⟩
  | handle event =>
    rw [call]
    rcases handle_cases hs event with ⟨bytes, rfl, hw, hc⟩ | ⟨ht, hc | ⟨_, _, _, e, hc⟩⟩
    · have hdrain := ((drains_drain (s.receiving bytes)).history hw (hs.features_iff hw)).close
      rw [hc]
      exact ⟨_, ⟨hdrain.spans, hdrain.mechanism⟩, fun hp => (error?_of_close_ne_closed hp).1⟩
    · rw [ht, hc]
      exact ⟨none, .still rfl, fun _ => rfl⟩
    · rw [ht, hc]
      exact ⟨none, .still rfl, fun _ => rfl⟩

/-- A closed session takes nothing. -/
theorem ledger_of_closed {s : Session} (hp : s.phase = .closed) (hb : s.buffer = .empty) (ops : List Operation) :
    s.ledger ops = [] := by
  induction ops generalizing s with
  | nil => rfl
  | cons op ops ih =>
    obtain ⟨held?, hs⟩ := call_of_closed hp hb op
    rw [ledger, takingsOf_eq_nil (fun hw => hw.ne_closed hp), ih (by rw [hs]; exact hp) (by rw [hs]; exact hb)]
    rfl

/-- A run of calls has the history of its ledger. A fatal span in it has closed the session. -/
theorem history_calls (ops : List Operation) {s : Session} {o : Output} (hs : s.Shows credentials nonce o) :
    ∃ fatal?, s.History ((s.calls ops).2.flatten.filterMap challengeOf?) (s.ledger ops) fatal? (s.calls ops).1 ∧
      ((s.calls ops).1.phase ≠ .closed → fatal? = none) := by
  induction ops generalizing s o with
  | nil => exact ⟨none, .still rfl, fun _ => rfl⟩
  | cons op ops ih =>
    obtain ⟨o', ht, _⟩ := shows_call hs op
    obtain ⟨fatal?, hcall, hopen⟩ := history_call hs op
    rw [calls, ledger, List.flatten_cons, List.filterMap_append]
    by_cases hp : (s.call op).1.phase = .closed
    · -- Behind a close, nothing is taken and nothing is said any more.
      obtain ⟨held?, hlater⟩ := calls_of_closed hp (ht.closed hp) ops
      rw [ledger_of_closed hp (ht.closed hp), flatten_calls_of_closed hp (ht.closed hp), hlater, List.append_nil,
        List.filterMap_nil, List.append_nil]
      exact ⟨fatal?, hcall.congr rfl, fun hne => absurd hp hne⟩
    · obtain ⟨later?, hlater, hopen'⟩ := ih ht
      rw [hopen hp] at hcall
      exact ⟨later?, hcall.trans hlater, hopen'⟩

end Session

end StreamAuth
