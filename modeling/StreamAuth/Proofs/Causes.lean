import StreamAuth.Proofs.Steps

/-!
# Where errors come from

A session is closed by what the server has sent, by the transport, or by an event that came at the wrong time. What the server
has sent is told apart by the error alone (`Error.fromServer`): a stanza is fatal for what its text says or fails to say, and
never for the time at which it came.
-/

namespace StreamAuth

/-- Whether an error is about something that the server has sent. -/
def Error.fromServer : Error → Bool
  | malformed _ | badEncoding _ | nothingInCommon _ | rejected _ | streamError _ => true
  | unknownMechanism _ | transport _ | timeout _ | misplaced _ | config _ | system _ => false

/-! ## Stanzas -/

/-- A text that cannot be read is malformed. -/
theorem malformed_of_parseText {text : String} {e : Error} (h : parseText text = .error e) : ∃ fault, e = .malformed fault := by
  unfold parseText at h
  cases hp : Xml.parse text with
  | error fault =>
    rw [hp] at h
    exact ⟨.xml fault, (Except.error.inj h).symm⟩
  | ok root =>
    rw [hp] at h
    cases h

/-- A span that cannot be read is malformed. -/
theorem malformed_of_parseSpan {span : Bytes} {e : Error} (h : parseSpan span = .error e) : ∃ fault, e = .malformed fault := by
  unfold parseSpan at h
  split at h
  · exact ⟨_, (Except.error.inj h).symm⟩
  · exact malformed_of_parseText h

/-- Features that cannot be read are malformed. -/
theorem malformed_of_readFeatures {span : Bytes} {e : Error} (h : readFeatures span = .error e) :
    ∃ fault, e = .malformed fault := by
  unfold readFeatures at h
  split at h
  · exact ⟨_, (Except.error.inj h).symm⟩
  · rename_i text _
    unfold readOffer at h
    cases hp : parseText text with
    | error e' =>
      rw [hp] at h
      exact Except.error.inj h ▸ malformed_of_parseText hp
    | ok root =>
      rw [hp] at h
      cases h

/-- What is wrong with a stanza is a matter of what the server has sent. -/
theorem SpanKind.fromServer_of_answer {kind : SpanKind} {span : Bytes} {e : Error} (h : kind.answer span = .error e) :
    e.fromServer := by
  cases kind with
  | features =>
    simp only [answer] at h
    split at h
    · rename_i e' he
      obtain ⟨fault, rfl⟩ := malformed_of_readFeatures he
      cases h
      rfl
    · split at h <;> cases h
      rfl
  | challenge =>
    simp only [answer, Challenge.decode, bind, Except.bind] at h
    cases hp : parseSpan span with
    | error e' =>
      obtain ⟨fault, rfl⟩ := malformed_of_parseSpan hp
      simp only [hp] at h
      cases h
      rfl
    | ok root =>
      simp only [hp] at h
      by_cases hname : root.localName = SpanKind.challenge.tag
      · rw [if_pos hname] at h
        cases hd : Base64.decode (Utf8.ofString root.text) <;> simp only [hd] at h <;> cases h
        rfl
      · rw [if_neg hname] at h
        cases h
        rfl
  | failure | streamError =>
    simp only [answer] at h
    split at h
    · rename_i e' he
      obtain ⟨fault, rfl⟩ := malformed_of_parseSpan he
      cases h
      rfl
    · cases h
      rfl

/-! ## Events -/

namespace Session

/-- Whether an event comes when it may: the connection first, and nothing but other events after it. -/
def Due (s : Session) (event : Event) : Prop :=
  (event = .connected ∧ s.phase = .connecting) ∨ (event ≠ .connected ∧ s.Waiting)

/-- A drain ends on nothing but what the server has sent. -/
theorem Drains.fromServer {s : Session} {run : Run} (h : Drains s run) {e : Error} (he : run.error? = some e) :
    e.fromServer := by
  induction h with
  | quiet => cases he
  | fatal _ ha =>
    cases he
    exact SpanKind.fromServer_of_answer ha
  | answered _ _ _ ih => exact ih he

/-- An event that is due ends on an error that tells where it comes from: bytes on what the server has sent, and a failure on
itself. -/
theorem Due.error_cases {s : Session} {event : Event} {e : Error} (h : s.Due event) (he : (s.advance event).error? = some e) :
    (e.fromServer ∧ ∃ bytes, event = .received bytes) ∨ ∃ fault, event = .failed fault ∧ e = .transport fault := by
  rcases h with ⟨rfl, hp⟩ | ⟨hne, hw⟩
  · simp [advance, hp] at he
  · cases event with
    | connected => exact absurd rfl hne
    | received bytes =>
      rw [advance_received hw] at he
      exact Or.inl ⟨(drains_drain _).fromServer he, bytes, rfl⟩
    | failed fault => exact Or.inr ⟨fault, rfl, (Option.some.inj he).symm⟩

/-- An event that is due does not end on being misplaced. -/
theorem Due.ne_misplaced {s : Session} {event : Event} (h : s.Due event) {misplaced : MisplacedEvent} :
    (s.advance event).error? ≠ some (.misplaced misplaced) := by
  intro he
  rcases h.error_cases he with ⟨hs, _⟩ | ⟨_, _, hc⟩
  · cases hs
  · cases hc

end Session

end StreamAuth
