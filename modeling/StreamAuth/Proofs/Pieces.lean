import StreamAuth.Proofs.Delivery

/-!
# When the pieces of a stream do not matter

A stream may arrive in any pieces, and what is seen of it is the same for all of them exactly when it is `Unambiguous`. That it
suffices is `Phase.readPieces_eq_read`. That it is needed is shown by comparing the stream as a whole with the stream in two
pieces (`Alike.answer_eq`), and then what follows the first span in the same way (`Alike.rest`). There are streams that are
ambiguous, and a failure with a stream error in it is one.
-/

namespace StreamAuth

/-- A stream of which the same is seen in whatever pieces it arrives. -/
def Alike (credentials : Credentials) (nonce : String) (o : Observation) (phase : Phase) (stream : Bytes) : Prop :=
  ∀ p q : List Bytes, p.flatten = stream → q.flatten = stream →
    o.extend credentials nonce (phase.readPieces [] p) = o.extend credentials nonce (phase.readPieces [] q)

namespace Phase

/-- A first piece with a fatal span in it is all that is read. -/
theorem readPieces_of_error {phase : Phase} {piece : Bytes} {span : Span SpanKind} {e : Error}
    (h : phase.firstSpan? piece = some span) (ha : span.kind.answer span.bytes = .error e) (pieces : List Bytes) :
    phase.readPieces [] (piece :: pieces) = ⟨[], some e, .closed, []⟩ := by
  rw [readPieces, List.nil_append, read_of_error h ha]
  rfl

/-- A first piece with a span in it that is answered is read with the answer in front. -/
theorem readPieces_of_ok {phase : Phase} {piece : Bytes} {span : Span SpanKind} {a : Answer}
    (h : phase.firstSpan? piece = some span) (ha : span.kind.answer span.bytes = .ok a) (pieces : List Bytes) :
    phase.readPieces [] (piece :: pieces) =
      (Phase.awaitingChallenge.readPieces [] (span.rest :: pieces)).following [a] := by
  rw [readPieces, List.nil_append, read_of_ok h ha, Reading.andThen_following]
  rfl

/-- An empty piece in front does not matter. -/
theorem readPieces_nil_cons (pieces : List Bytes) :
    Phase.awaitingChallenge.readPieces [] ([] :: pieces) = Phase.awaitingChallenge.readPieces [] pieces := by
  rw [readPieces, List.nil_append, read_of_none rfl]
  exact Reading.following_nil _

end Phase

namespace Alike

variable {credentials : Credentials} {nonce : String} {o : Observation} {phase : Phase}

/-- If the pieces do not matter, then what would be taken first had only some of the bytes arrived is answered like what is
taken first. -/
theorem answer_eq {arrived more : Bytes} (h : Alike credentials nonce o phase (arrived ++ more)) {early span : Span SpanKind}
    (he : phase.firstSpan? arrived = some early) (hs : phase.firstSpan? (arrived ++ more) = some span) :
    early.kind.answer early.bytes = span.kind.answer span.bytes := by
  have hseen := h [arrived, more] [arrived ++ more] (by simp) (by simp)
  have hcount := Observation.length_extend credentials nonce o (phase.readPieces [] [arrived, more])
  rw [hseen, Observation.length_extend credentials nonce o] at hcount
  cases hea : early.kind.answer early.bytes with
  | error e =>
    rw [Phase.readPieces_of_error he hea] at hseen hcount
    cases hsa : span.kind.answer span.bytes with
    | error e' =>
      rw [Phase.readPieces_of_error hs hsa] at hseen
      have herror : some e = some e' := congrArg Observation.error? hseen
      rw [Option.some.inj herror]
    | ok a =>
      rw [Phase.readPieces_of_ok hs hsa] at hcount
      simp only [Reading.answers_following, List.length_append, List.length_cons, List.length_nil] at hcount
      omega
  | ok a =>
    rw [Phase.readPieces_of_ok he hea] at hcount
    cases hsa : span.kind.answer span.bytes with
    | error e =>
      rw [Phase.readPieces_of_error hs hsa] at hcount
      simp only [Reading.answers_following, List.length_append, List.length_cons, List.length_nil] at hcount
      omega
    | ok b =>
      -- Both are of the one kind that is answered in the phase, and spans of one kind do not move.
      have hkind : early.kind = span.kind := by
        rcases Phase.answer_of_watched (Phase.frame?_of_firstSpan? he).1 hea with ⟨rfl, hk, _⟩ | ⟨rfl, hk, _⟩ <;>
          rcases Phase.answer_of_watched (Phase.frame?_of_firstSpan? hs).1 hsa with ⟨hp, hk', _⟩ | ⟨hp, hk', _⟩
        · exact hk.trans hk'.symm
        · cases hp
        · cases hp
        · exact hk.trans hk'.symm
      obtain ⟨hbytes, _⟩ := Phase.firstSpan?_append_of_kind he hs hkind
      rw [← hea, ← hsa, hkind, hbytes]

/-- If the pieces do not matter, then they do not matter for what follows the first span either. -/
theorem rest {stream : Bytes} (h : Alike credentials nonce o phase stream) {span : Span SpanKind} {a : Answer}
    (hs : phase.firstSpan? stream = some span) (ha : span.kind.answer span.bytes = .ok a) :
    Alike credentials nonce (o.answer credentials nonce [a]) .awaitingChallenge span.rest := by
  obtain ⟨hk, dropped, hf, _⟩ := Phase.frame?_of_firstSpan? hs
  obtain ⟨hopening, hclosing, rfl, hfirst, henc⟩ := Delimiters.frame?_eq_some_iff.mp hf
  have hframe : span.kind.delimiters.frame? (dropped ++ span.bytes) = some ⟨dropped, span.bytes, []⟩ :=
    Delimiters.frame?_eq_some_iff.mpr ⟨hopening, hclosing, (List.append_nil _).symm, hfirst, henc⟩
  -- The bytes up to the end of the span hold it, and it is taken from them with nothing left over.
  obtain ⟨early, he⟩ := Phase.exists_firstSpan? hk hframe
  have hea := (h.answer_eq he hs).trans ha
  obtain ⟨_, hrest⟩ := Phase.firstSpan?_append_of_kind he hs (SpanKind.kind_eq_of_answer hea ha)
  have hnil : early.rest = [] := List.append_left_eq_self.mp hrest.symm
  intro p q hp hq
  have hseen := h ((dropped ++ span.bytes) :: p) ((dropped ++ span.bytes) :: q) (by simp [hp]) (by simp [hq])
  rwa [Phase.readPieces_of_ok he hea, Phase.readPieces_of_ok he hea, hnil, Phase.readPieces_nil_cons,
    Phase.readPieces_nil_cons, Observation.extend_following, Observation.extend_following] at hseen

/-- A stream whose pieces do not matter is not ambiguous. -/
theorem unambiguous {stream : Bytes} : Alike credentials nonce o phase stream → Phase.Unambiguous phase stream := by
  induction phase, stream using Phase.read.induct generalizing o with
  | case1 phase stream hs =>
    intro _
    exact .quiet hs
  | case2 phase stream span hs e ha =>
    intro h
    refine .taken hs (fun arrived early hp he => ?_) fun a ha' => by cases ha.symm.trans ha'
    obtain ⟨more, rfl⟩ := hp
    exact h.answer_eq he hs
  | case3 phase stream span hs a ha ih =>
    intro h
    refine .taken hs (fun arrived early hp he => ?_) fun _ _ => ih (h.rest hs ha)
    obtain ⟨more, rfl⟩ := hp
    exact h.answer_eq he hs

end Alike

/-- Of a stream the same is seen by every driver, in whatever pieces it hands the stream over, exactly when the stream is not
ambiguous. The names of the sessions do not matter, and neither do their credentials and nonce as long as they are the same. -/
theorem same_for_all_pieces_iff (credentials : Credentials) (nonce : String) (stream : Bytes) :
    (∀ (id id' : String) (p q : List Bytes), p.flatten = stream → q.flatten = stream →
      ((Session.new id credentials nonce).deliver p).observation =
        ((Session.new id' credentials nonce).deliver q).observation) ↔
      Phase.Unambiguous .awaitingFeatures stream := by
  constructor
  · intro h
    have halike : Alike credentials nonce (.opened credentials) .awaitingFeatures stream := by
      intro p q hp hq
      rw [← (observation_deliver "" credentials nonce p).1, ← (observation_deliver "" credentials nonce q).1]
      exact h "" "" p q hp hq
    exact halike.unambiguous
  · intro hu id id' p q hp hq
    rw [(observation_deliver id credentials nonce p).1, (observation_deliver id' credentials nonce q).1]
    rw [Phase.readPieces_eq_read_of_flatten hp hu, Phase.readPieces_eq_read_of_flatten hq hu]

/-- A stream error without anything in it, as it is written. -/
theorem written_streamError : Xml.Written [⟨"stream:error", [], "", []⟩] "<stream:error></stream:error>".toList :=
  .element (by decide) .nil (by decide) .nil .nil

/-- A stream error without anything in it has no condition. -/
theorem answer_streamError :
    SpanKind.streamError.answer (Utf8.ofString "<stream:error></stream:error>") =
      .error (.streamError "undefined-condition") := by
  have hcondition : conditionOf ⟨"stream:error", [], "", []⟩ = "undefined-condition" := by decide +kernel
  exact hcondition ▸ SpanKind.answer_streamError_of_written written_streamError

/-- A failure with a stream error in it. -/
theorem answer_failure :
    SpanKind.failure.answer (Utf8.ofString "<failure><stream:error></stream:error></failure>") =
      .error (.rejected "error") := by
  have hwritten : Xml.Written [⟨"failure", [], "", [⟨"stream:error", [], "", []⟩]⟩]
      "<failure><stream:error></stream:error></failure>".toList := .element (by decide) .nil (by decide) written_streamError .nil
  have hcondition : conditionOf ⟨"failure", [], "", [⟨"stream:error", [], "", []⟩]⟩ = "error" := by decide +kernel
  exact hcondition ▸ SpanKind.answer_failure_of_written hwritten

/-- It is not so that the pieces of a stream never matter. A failure with a stream error in it is a failure when it arrives as
a whole, and a stream error when it arrives without its last bytes first. -/
theorem same_for_all_pieces_false :
    ¬∀ (id id' : String) (credentials : Credentials) (nonce : String) (p q : List Bytes), p.flatten = q.flatten →
      ((Session.new id credentials nonce).deliver p).observation =
        ((Session.new id' credentials nonce).deliver q).observation := by
  intro h
  have hflat : [Utf8.ofString "<failure><stream:error></stream:error>", Utf8.ofString "</failure>"].flatten =
      [Utf8.ofString "<failure><stream:error></stream:error></failure>"].flatten := by decide +kernel
  have hseen := h "id" "id" ⟨"host", "user", "password"⟩ "nonce" _ _ hflat
  have hcut : Phase.awaitingFeatures.firstSpan? (Utf8.ofString "<failure><stream:error></stream:error>") =
      some ⟨.streamError, Utf8.ofString "<stream:error></stream:error>", []⟩ := by decide +kernel
  have hwhole : Phase.awaitingFeatures.firstSpan? (Utf8.ofString "<failure><stream:error></stream:error></failure>") =
      some ⟨.failure, Utf8.ofString "<failure><stream:error></stream:error></failure>", []⟩ := by decide +kernel
  rw [(observation_deliver _ _ _ _).1, (observation_deliver _ _ _ _).1, Phase.readPieces_of_error hcut answer_streamError,
    Phase.readPieces_of_error hwhole answer_failure] at hseen
  cases congrArg Observation.error? hseen

end StreamAuth
