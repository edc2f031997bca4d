import StreamAuth.CommandLine.Run
import StreamAuth.Proofs.Verdicts

/-!
# Replays

A replay hands a recorded stream to a session step by step, up to the first step that returns an error. While no stanza is fatal
it prints one line for each answer of the session, whatever the size of the steps. Where a stanza is fatal, what comes of it depends
on what the session answers in the same step, and so on the size: one byte at a time, all answers are printed and then the error is
reported; in one step, the error hides the announcement, or it is held behind a challenge and never reported.
-/

namespace StreamAuth.CommandLine

open Session (Ready)

/-! ## Lines -/

/-- The line for an answer. -/
def answerLine (credentials : Credentials) (nonce : String) : Answer → String
  | .announce m => writeLine (Stanza.announce m credentials.username nonce).toBytes
  | .pass c => challengeLine c

/-- The lines at the end, by what is waited for and what is left over. -/
def endLines (phase : Phase) (unread : Bytes) : List String :=
  ("Final state: " ++ phase.label) :: if unread.isEmpty then [] else ["Unconsumed: " ++ Utf8.decodeLossy unread]

theorem finalLines_eq (s : Session) : finalLines s = endLines s.phase s.buffer.bytes := rfl

variable {credentials : Credentials} {nonce : String}

/-- What is written in a reading comes before what is handed out, so that the lines for the one and the other are those of the
answers. -/
theorem lines_of_read (phase : Phase) (bytes : Bytes) :
    ((phase.read bytes).answers.filterMap (Answer.write? credentials nonce)).map writeLine ++
        ((phase.read bytes).answers.filterMap Answer.challenge?).map challengeLine =
      (phase.read bytes).answers.map (answerLine credentials nonce) := by
  rcases phase.answers_read bytes with h | ⟨a, challenges, h, _⟩
  · rw [h]
    rfl
  · have hwrites := Answer.filterMap_write?_pass credentials nonce challenges
    have hchallenges := Answer.filterMap_challenge?_pass challenges
    have hlines : challenges.map challengeLine = (challenges.map Answer.pass).map (answerLine credentials nonce) := by
      rw [List.map_map]
      rfl
    rw [h]
    cases a <;>
      simp only [List.filterMap_cons, Answer.write?, Answer.challenge?, hwrites, hchallenges, List.map_cons, List.map_nil,
        List.nil_append, List.cons_append, hlines, answerLine]

/-! ## Steps -/

/-- A step that comes to no error prints the lines of its answers, and the replay goes on from where it has led. -/
theorem replayEvents_cons_of_ok {s : Session} (h : s.Ready) {piece : Bytes}
    (he : (s.phase.read (s.buffer.bytes ++ piece)).error? = none) (pieces : List Bytes) :
    ∃ t : Session, t.Ready ∧ t.credentials = s.credentials ∧ t.nonce = s.nonce ∧
      t.phase = (s.phase.read (s.buffer.bytes ++ piece)).phase ∧
      t.buffer.bytes = (s.phase.read (s.buffer.bytes ++ piece)).unread ∧
      replayEvents s ((piece :: pieces).map .received) =
        (replayEvents t (pieces.map .received)).after
          ((s.phase.read (s.buffer.bytes ++ piece)).answers.map (answerLine s.credentials s.nonce)) := by
  obtain ⟨t, hdispatch, ht, hc, hn, _, hp, hb⟩ := Session.dispatch_of_ok h rfl he {}
  refine ⟨t, ht, hc, hn, hp, hb, ?_⟩
  rw [List.map_cons, replayEvents, replayStep, hdispatch, ← lines_of_read]
  rfl

/-- Once an error is held, it is reported by the next step, or by none. -/
theorem replayEvents_of_held {t : Session} (hp : t.phase = .closed) (hb : t.buffer = .empty) {e : Error}
    (hh : t.held? = some e) (pieces : List Bytes) :
    replayEvents t (pieces.map .received) =
      if pieces = [] then { lines := endLines .closed [] } else .failed (.exchange e) := by
  cases pieces with
  | nil =>
    rw [if_pos rfl, List.map_nil, replayEvents, finalLines_eq, hp, hb]
    rfl
  | cons piece pieces =>
    have hclosed := Session.isClosed_of_closed hp
    rw [if_neg (List.cons_ne_nil _ _), List.map_cons, replayEvents]
    simp only [replayStep, Session.dispatch, hclosed, Session.handle_of_held hh]
    rfl

/-- A step that comes to an error reports it, and prints nothing, if it has no challenge. If it has, the lines of its answers are
printed, and the error is reported if there is another step. -/
theorem replayEvents_cons_of_error {s : Session} (h : s.Ready) {piece : Bytes} {e : Error}
    (he : (s.phase.read (s.buffer.bytes ++ piece)).error? = some e) (pieces : List Bytes) :
    replayEvents s ((piece :: pieces).map .received) =
      if (s.phase.read (s.buffer.bytes ++ piece)).answers.filterMap Answer.challenge? = [] then .failed (.exchange e)
      else if pieces = [] then
        { lines := (s.phase.read (s.buffer.bytes ++ piece)).answers.map (answerLine s.credentials s.nonce) ++
            endLines .closed [] }
      else
        { lines := (s.phase.read (s.buffer.bytes ++ piece)).answers.map (answerLine s.credentials s.nonce)
          failure? := some (.exchange e) } := by
  obtain ⟨t, result, hdispatch, hp, hb, _, ⟨_, hnil, rfl⟩ | ⟨hh, hne, rfl⟩⟩ := Session.dispatch_of_error h rfl he {}
  · simp only [hnil, if_true]
    rw [List.map_cons, replayEvents, replayStep, hdispatch]
    rfl
  · have hstep : replayEvents s ((piece :: pieces).map .received) = (replayEvents t (pieces.map .received)).after
        ((s.phase.read (s.buffer.bytes ++ piece)).answers.map (answerLine s.credentials s.nonce)) := by
      rw [List.map_cons, replayEvents, replayStep, hdispatch, ← lines_of_read]
      rfl
    rw [hstep, replayEvents_of_held hp hb hh]
    simp only [hne, if_false]
    split
    · rfl
    · simp [Result.after, Result.failed]

/-! ## Whole replays -/

/-- While nothing is fatal, a replay prints a line for each answer, and then the end. -/
theorem replayEvents_of_ok (pieces : List Bytes) {s : Session} (h : s.Ready) {r : Reading}
    (hr : s.phase.readPieces s.buffer.bytes pieces = r) (he : r.error? = none) :
    replayEvents s (pieces.map .received) =
      { lines := r.answers.map (answerLine s.credentials s.nonce) ++ endLines r.phase r.unread } := by
  induction pieces generalizing s r with
  | nil =>
    cases hr
    rfl
  | cons piece pieces ih =>
    cases he' : (s.phase.read (s.buffer.bytes ++ piece)).error? with
    | some e =>
      rw [← hr, Phase.readPieces_cons_of_error he', he'] at he
      cases he
    | none =>
      rw [Phase.readPieces_cons_of_ok he'] at hr
      cases hr
      rw [Reading.error?_following] at he
      obtain ⟨t, ht, hc, hn, hp, hb, hstep⟩ := replayEvents_cons_of_ok h he' pieces
      rw [hstep, ih ht (by rw [hp, hb]) he, hc, hn]
      simp [Result.after]

/-- With a fatal stanza, a replay prints a line for each of the first answers and reports the error; or there is a challenge among
the answers, all of them are printed, and nothing is reported. -/
theorem replayEvents_of_error (pieces : List Bytes) {s : Session} (h : s.Ready) {r : Reading}
    (hr : s.phase.readPieces s.buffer.bytes pieces = r) {e : Error} (he : r.error? = some e) :
    (∃ answers, answers <+: r.answers ∧ replayEvents s (pieces.map .received) =
        { lines := answers.map (answerLine s.credentials s.nonce), failure? := some (.exchange e) }) ∨
      (r.answers.filterMap Answer.challenge? ≠ [] ∧ replayEvents s (pieces.map .received) =
        { lines := r.answers.map (answerLine s.credentials s.nonce) ++ endLines .closed [] }) := by
  induction pieces generalizing s r with
  | nil =>
    cases hr
    cases he
  | cons piece pieces ih =>
    cases he' : (s.phase.read (s.buffer.bytes ++ piece)).error? with
    | some e' =>
      rw [Phase.readPieces_cons_of_error he'] at hr
      cases hr
      cases he'.symm.trans he
      rw [replayEvents_cons_of_error h he']
      split
      · exact Or.inl ⟨[], List.nil_prefix, rfl⟩
      · rename_i hne
        split
        · exact Or.inr ⟨hne, rfl⟩
        · exact Or.inl ⟨_, List.prefix_refl _, rfl⟩
    | none =>
      rw [Phase.readPieces_cons_of_ok he'] at hr
      cases hr
      rw [Reading.error?_following] at he
      obtain ⟨t, ht, hc, hn, hp, hb, hstep⟩ := replayEvents_cons_of_ok h he' pieces
      rw [hstep]
      rcases ih ht (by rw [hp, hb]) he with ⟨answers, hprefix, hrest⟩ | ⟨hne, hrest⟩
      · refine Or.inl ⟨_, (List.prefix_append_right_inj _).mpr hprefix, ?_⟩
        rw [hrest, hc, hn]
        simp [Result.after]
      · refine Or.inr ⟨?_, ?_⟩
        · rw [Reading.answers_following, List.filterMap_append]
          exact List.append_ne_nil_of_right_ne_nil _ hne
        · rw [hrest, hc, hn]
          simp [Result.after]

/-- Byte by byte, all answers are printed before the error. -/
theorem replayEvents_of_bytes (bytes : Bytes) {s : Session} (h : s.Ready) (hq : s.phase.firstSpan? s.buffer.bytes = none)
    {r : Reading} (hr : s.phase.readPieces s.buffer.bytes (bytes.map fun b => [b]) = r) {e : Error} (he : r.error? = some e) :
    replayEvents s ((bytes.map fun b => [b]).map .received) =
      { lines := r.answers.map (answerLine s.credentials s.nonce), failure? := some (.exchange e) } := by
  induction bytes generalizing s r with
  | nil =>
    cases hr
    cases he
  | cons b bytes ih =>
    rw [List.map_cons] at hr ⊢
    cases he' : (s.phase.read (s.buffer.bytes ++ [b])).error? with
    | some e' =>
      rw [Phase.readPieces_cons_of_error he'] at hr
      cases hr
      cases he'.symm.trans he
      rw [replayEvents_cons_of_error h he', Phase.answers_eq_nil_of_last hq (by rw [he']; nofun)]
      rfl
    | none =>
      rw [Phase.readPieces_cons_of_ok he'] at hr
      cases hr
      rw [Reading.error?_following] at he
      obtain ⟨t, ht, hc, hn, hp, hb, hstep⟩ := replayEvents_cons_of_ok h he' (bytes.map fun b => [b])
      rw [hstep, ih ht (by rw [hp, hb]; exact Phase.firstSpan?_unread _ _ he') (by rw [hp, hb]) he, hc, hn]
      simp [Result.after]

/-- A piece for each byte. -/
theorem chunks_of_le_one {size : Nat} (h : size ≤ 1) (bytes : Bytes) : chunks size bytes = bytes.map fun b => [b] := by
  have hsize : max size 1 = 1 := Nat.max_eq_right h
  induction bytes with
  | nil => rw [chunks, dif_pos rfl, List.map_nil]
  | cons b bytes ih =>
    rw [chunks, dif_neg (List.cons_ne_nil _ _), hsize]
    exact congrArg _ ih

/-! ## Replays of framed streams -/

/-- What is seen of a command from outside: its exit status, what it prints, and what it reports if it fails. The log, which goes
where the report goes, is left out: its lines hold times and random names. So `--verbose`, and the filter that the environment may
set for the log, have no effect on what is seen here. -/
def Result.seen (r : Result) : Nat × String × Option String :=
  (r.exitCode, r.output, r.failure?.map Failure.report)

/-- A line more can be seen. -/
theorem output_ne_of_lines {r r' : Result} {line : String} {more : List String} (h : r'.lines = r.lines ++ line :: more) :
    r'.output ≠ r.output := by
  intro houtput
  have hlength := congrArg String.length houtput
  rw [Result.output, h, List.map_append, String.join_append, List.map_cons, String.join_cons, ← Result.output] at hlength
  simp only [String.length_append] at hlength
  have hend : ("\n" : String).length = 1 := rfl
  omega

/-- The lines of a replay that has come to some answers. -/
def replayLines (s : Surroundings) (o : ReplayOptions) (answers : List Answer) : List String :=
  writeLine (Stanza.streamHeader o.host).toBytes ::
    answers.map (answerLine ⟨o.host, o.username, ""⟩ (o.nonce?.getD s.nonce))

section

variable {s : Surroundings} {o : ReplayOptions} {bytes : Bytes}

/-- A replay opens the stream, and then hands over what it has read. -/
theorem replay_eq (h : s.contents o.file = .ok bytes) (size : Nat) :
    replay s { o with chunkSize := size } =
      (replayEvents (Session.new s.sessionId ⟨o.host, o.username, ""⟩ (o.nonce?.getD s.nonce)).openStream.1
        ((chunks size bytes).map .received)).after [writeLine (Stanza.streamHeader o.host).toBytes] := by
  rw [replay, h]
  rfl

/-- The reading of what is handed over is the same for all sizes, if the stream is not ambiguous. -/
theorem readPieces_chunks (hu : Phase.Unambiguous .awaitingFeatures bytes) (size : Nat) :
    Phase.awaitingFeatures.readPieces [] (chunks size bytes) = Phase.awaitingFeatures.read bytes :=
  Phase.readPieces_eq_read_of_flatten (flatten_chunks size bytes) hu

theorem ready_opened (id : String) (credentials : Credentials) (nonce : String) :
    (Session.new id credentials nonce).openStream.1.Ready :=
  ⟨Or.inl rfl, rfl⟩

variable {r : Reading}

/-- Without a fatal stanza, every size gives all lines and the end. -/
theorem replay_of_ok (h : s.contents o.file = .ok bytes) (hu : Phase.Unambiguous .awaitingFeatures bytes)
    (hr : Phase.awaitingFeatures.read bytes = r) (he : r.error? = none) (size : Nat) :
    replay s { o with chunkSize := size } = { lines := replayLines s o r.answers ++ endLines r.phase r.unread } := by
  rw [replay_eq h, replayEvents_of_ok _ (ready_opened _ _ _) ((readPieces_chunks hu size).trans hr) he]
  rfl

/-- With a fatal stanza, every size gives some of the lines and reports the error, or all of them and a closed session. -/
theorem replay_of_error (h : s.contents o.file = .ok bytes) (hu : Phase.Unambiguous .awaitingFeatures bytes)
    (hr : Phase.awaitingFeatures.read bytes = r) {e : Error} (he : r.error? = some e) (size : Nat) :
    (∃ answers, answers <+: r.answers ∧
        replay s { o with chunkSize := size } = { lines := replayLines s o answers, failure? := some (.exchange e) }) ∨
      (r.answers.filterMap Answer.challenge? ≠ [] ∧
        replay s { o with chunkSize := size } = { lines := replayLines s o r.answers ++ endLines .closed [] }) := by
  rw [replay_eq h]
  rcases replayEvents_of_error _ (ready_opened _ _ _) ((readPieces_chunks hu size).trans hr) he with
    ⟨answers, hprefix, hreplay⟩ | ⟨hne, hreplay⟩
  · exact Or.inl ⟨answers, hprefix, by rw [hreplay]; rfl⟩
  · exact Or.inr ⟨hne, by rw [hreplay]; rfl⟩

/-- With a fatal stanza, one byte at a time gives all lines and reports the error. -/
theorem replay_of_error_bytewise (h : s.contents o.file = .ok bytes) (hu : Phase.Unambiguous .awaitingFeatures bytes)
    (hr : Phase.awaitingFeatures.read bytes = r) {e : Error} (he : r.error? = some e) {size : Nat} (hsize : size ≤ 1) :
    replay s { o with chunkSize := size } = { lines := replayLines s o r.answers, failure? := some (.exchange e) } := by
  have hread := (readPieces_chunks hu size).trans hr
  rw [chunks_of_le_one hsize] at hread
  rw [replay_eq h, chunks_of_le_one hsize, replayEvents_of_bytes bytes (ready_opened _ _ _) rfl hread he]
  rfl

/-- With a fatal stanza, one step for all bytes reports the error without the announcement, or prints all lines without the
error. -/
theorem replay_of_error_at_once (h : s.contents o.file = .ok bytes) (hr : Phase.awaitingFeatures.read bytes = r) {e : Error}
    (he : r.error? = some e) {size : Nat} (hsize : bytes.length ≤ size) :
    replay s { o with chunkSize := size } =
      if r.answers.filterMap Answer.challenge? = [] then { lines := replayLines s o [], failure? := some (.exchange e) }
      else { lines := replayLines s o r.answers ++ endLines .closed [] } := by
  have hne : bytes ≠ [] := by
    rintro rfl
    rw [← hr, Phase.read_of_none rfl] at he
    cases he
  subst hr
  rw [replay_eq h, chunks_of_length_le hne hsize]
  have hstep := replayEvents_cons_of_error (ready_opened s.sessionId ⟨o.host, o.username, ""⟩ (o.nonce?.getD s.nonce)) he []
  by_cases hnil : (Phase.awaitingFeatures.read bytes).answers.filterMap Answer.challenge? = []
  · rw [hstep.trans (if_pos hnil), if_pos hnil]
    rfl
  · rw [hstep.trans ((if_neg hnil).trans (if_pos rfl)), if_neg hnil]
    rfl

/-- All sizes look the same only if nothing is fatal, or nothing is answered before what is: otherwise one byte at a time and one
step for all bytes can be told apart. -/
theorem seen_replay_iff (h : s.contents o.file = .ok bytes) (hu : Phase.Unambiguous .awaitingFeatures bytes)
    (hr : Phase.awaitingFeatures.read bytes = r) :
    (∀ size size', (replay s { o with chunkSize := size }).seen = (replay s { o with chunkSize := size' }).seen) ↔
      r.error? = none ∨ r.answers = [] := by
  constructor
  · intro hsame
    by_contra hboth
    obtain ⟨herror, hanswers⟩ := not_or.mp hboth
    obtain ⟨e, he⟩ := Option.ne_none_iff_exists'.mp herror
    obtain ⟨a, answers, hanswers⟩ := List.exists_cons_of_ne_nil hanswers
    have hseen := hsame 1 bytes.length
    rw [replay_of_error_bytewise h hu hr he le_rfl, replay_of_error_at_once h hr he le_rfl] at hseen
    by_cases hnil : r.answers.filterMap Answer.challenge? = []
    · -- The announcement is printed byte by byte, and hidden by the error in one step.
      rw [if_pos hnil, hanswers] at hseen
      exact output_ne_of_lines rfl (congrArg (fun seen => seen.2.1) hseen)
    · -- The error is reported byte by byte, and held in one step.
      rw [if_neg hnil] at hseen
      cases congrArg Prod.fst hseen
  · intro hor size size'
    cases he : r.error? with
    | none => rw [replay_of_ok h hu hr he, replay_of_ok h hu hr he]
    | some e =>
      have hnil : r.answers = [] := hor.resolve_left (by rw [he]; nofun)
      have hreplay (size : Nat) :
          replay s { o with chunkSize := size } = { lines := replayLines s o [], failure? := some (.exchange e) } := by
        rcases replay_of_error h hu hr he size with ⟨answers, hprefix, hreplay⟩ | ⟨hne, _⟩
        · rw [hnil, List.prefix_nil] at hprefix
          rw [hreplay, hprefix]
        · rw [hnil] at hne
          exact absurd rfl hne
      rw [hreplay, hreplay]

end

/-- The lines for the writes and the challenges of a conversation are those of the reading, behind the header. There are answers
exactly if a mechanism was announced. -/
theorem lines_of_conversation (s : Surroundings) (o : ReplayOptions) (stream : FramedStream) :
    let credentials : Credentials := ⟨o.host, o.username, ""⟩
    let nonce := o.nonce?.getD s.nonce
    let c := stream.arrivals.foldl (Conversation.hear credentials nonce) (.start credentials stream.lead)
    let r := Phase.awaitingFeatures.read stream.bytes
    c.writes.map writeLine ++ c.challenges.map challengeLine = replayLines s o r.answers ∧
      (c.mechanism? = none ↔ r.answers = []) := by
  intro credentials nonce c r
  obtain ⟨_, hmatches⟩ := Conversation.matches_start credentials nonce stream
  refine ⟨?_, ?_⟩
  · rw [show c.writes = _ from hmatches.writes, show c.challenges = _ from hmatches.challenges, replayLines, ← lines_of_read]
    simp [Conversation.start, credentials, nonce]
  · rw [show c.mechanism? = _ from hmatches.mechanism]
    rcases Phase.awaitingFeatures.answers_read stream.bytes with hnil | ⟨a, challenges, hanswers, hannounce, _⟩
    · simp [r, hnil, Conversation.start]
    · obtain ⟨m, rfl⟩ := hannounce rfl
      simp [r, hanswers, Answer.foldl_mechanismAfter_pass, Answer.mechanismAfter]

/-- Surroundings in which every file is a record of the stream. -/
def recorded (stream : FramedStream) : Surroundings where
  file _ := .ok stream.bytes
  peer := { segments := [], ending := .close }
  sessionId := "id"
  nonce := "nonce"

theorem contents_recorded (stream : FramedStream) : (recorded stream).contents "t.xml" = .ok stream.bytes := by
  rw [Surroundings.contents, if_neg (by simp)]
  rfl

/-- How a replay of a framed stream depends on the size of its steps, in three parts, by the conversation that the stream is.
`told` are the lines for the writes and the challenges of the conversation.
1. If no stanza is fatal, every size gives all of `told`, and where the session has come to.
2. If a stanza is fatal, every size either gives some of `told` and reports the error; or the conversation has a challenge, all of
   `told` is printed, and the session is closed with nothing reported. Byte by byte it is all of `told` and the error. In one step
   it is the error without the announcement if the conversation has no challenge, and all of `told` without the error if it has.
3. So all sizes look the same if and only if no stanza is fatal, or one is before anything was announced. -/
theorem replay_of_framed (s : Surroundings) (o : ReplayOptions) (stream : FramedStream)
    (h : s.contents o.file = .ok stream.bytes) :
    let credentials : Credentials := ⟨o.host, o.username, ""⟩
    let nonce := o.nonce?.getD s.nonce
    let c := stream.arrivals.foldl (Conversation.hear credentials nonce) (.start credentials stream.lead)
    let header := writeLine (Stanza.streamHeader o.host).toBytes
    let told := c.writes.map writeLine ++ c.challenges.map challengeLine
    let replayed (size : Nat) := replay s { o with chunkSize := size }
    (c.error? = none → ∀ size, replayed size = { lines := told ++ endLines c.phase (c.unread ++ stream.tail) }) ∧
      (∀ e, c.error? = some e →
        (∀ size,
          (∃ lines, header :: lines <+: told ∧
              replayed size = { lines := header :: lines, failure? := some (.exchange e) }) ∨
            (c.challenges ≠ [] ∧ replayed size = { lines := told ++ endLines .closed [] })) ∧
        (∀ size ≤ 1, replayed size = { lines := told, failure? := some (.exchange e) }) ∧
        (∀ size, stream.bytes.length ≤ size →
          replayed size =
            if c.challenges = [] then { lines := [header], failure? := some (.exchange e) }
            else { lines := told ++ endLines .closed [] })) ∧
      ((∀ size size', (replayed size).seen = (replayed size').seen) ↔ c.error? = none ∨ c.mechanism? = none) := by
  intro credentials nonce c header told replayed
  obtain ⟨hu, hmatches⟩ := Conversation.matches_start credentials nonce stream
  obtain ⟨hlines, hmechanism⟩ := lines_of_conversation s o stream
  have herror : c.error? = (Phase.awaitingFeatures.read stream.bytes).error? := hmatches.error
  have hchallenges : c.challenges = (Phase.awaitingFeatures.read stream.bytes).answers.filterMap Answer.challenge? :=
    hmatches.challenges
  have htold : told = replayLines s o (Phase.awaitingFeatures.read stream.bytes).answers := hlines
  refine ⟨fun he size => ?_, fun e he => ⟨fun size => ?_, fun size hsize => ?_, fun size hsize => ?_⟩, ?_⟩
  · have he' := herror.symm.trans he
    obtain ⟨hphase, hunread⟩ := hmatches.position he'
    rw [show c.phase = _ from hphase, show c.unread ++ stream.tail = _ from hunread, htold]
    exact replay_of_ok h hu rfl he' size
  · rw [htold, hchallenges]
    rcases replay_of_error h hu rfl (herror.symm.trans he) size with ⟨answers, hprefix, hreplay⟩ | hreplay
    · exact Or.inl ⟨_, List.cons_prefix_cons.mpr ⟨rfl, hprefix.map _⟩, hreplay⟩
    · exact Or.inr hreplay
  · rw [htold]
    exact replay_of_error_bytewise h hu rfl (herror.symm.trans he) hsize
  · rw [htold, hchallenges]
    exact replay_of_error_at_once h rfl (herror.symm.trans he) hsize
  · rw [herror, show c.mechanism? = none ↔ _ from hmechanism]
    exact seen_replay_iff h hu rfl

/-- One byte at a time, a failure behind a challenge is reported. -/
theorem replay_of_framed_abort :
    (recorded abort).contents "t.xml" = .ok abort.bytes ∧
      ∀ size ≤ 1, replay (recorded abort) { file := "t.xml", chunkSize := size } =
        { lines := [writeLine (Stanza.streamHeader "localhost").toBytes,
            writeLine (Stanza.announce .digestMd5 "user" "nonce").toBytes, challengeLine ⟨[97]⟩]
          failure? := some (.exchange (.rejected "undefined-condition")) } := by
  obtain ⟨_, hmatches⟩ := Conversation.matches_start ⟨"localhost", "user", ""⟩ "nonce" abort
  obtain ⟨hlines, _⟩ := lines_of_conversation (recorded abort) { file := "t.xml" } abort
  have herror := hmatches.error
  rw [read_abort] at herror hlines
  refine ⟨contents_recorded abort, fun size hsize => ?_⟩
  have hreplayed :=
    ((replay_of_framed (recorded abort) { file := "t.xml" } abort (contents_recorded abort)).2.1 _ herror).2.1 size hsize
  exact hreplayed.trans (congrArg (fun lines => (⟨lines, _⟩ : Result)) hlines)

/-- It is not so that all sizes look the same. If a failure comes right behind a challenge, one byte at a time ends with the
error, and one step for all bytes with a closed session. -/
theorem replay_of_framed_false :
    ¬∀ (s : Surroundings) (o : ReplayOptions) (stream : FramedStream), stream.tail = [] →
      s.contents o.file = .ok stream.bytes →
      ∀ size size', (replay s { o with chunkSize := size }).seen = (replay s { o with chunkSize := size' }).seen := by
  intro h
  have hcontents := contents_recorded abort
  obtain ⟨hu, _⟩ := Conversation.matches_start ⟨"localhost", "user", ""⟩ "nonce" abort
  have hsame := (seen_replay_iff hcontents hu read_abort).mp (h (recorded abort) { file := "t.xml" } abort rfl hcontents)
  rcases hsame with herror | hanswers
  · cases herror
  · cases hanswers

end StreamAuth.CommandLine
