import StreamAuth.Proofs.Counters
import StreamAuth.Proofs.Extraction
import StreamAuth.Proofs.Stanzas

/-!
# Quiescence

A session that waits for a stanza looks for complete spans of three kinds in what has arrived, takes the one that begins first,
and looks again, with other kinds if the span has moved it on. `Loops` is that loop with its rounds. Every round takes a span that
the buffer gives, so the buffer shrinks and the loop ends; where it ends without an error nothing is left to take, and a session
that is then handed no bytes stays as it is, as often as one likes.
-/

namespace StreamAuth

open Session (watched)

/-! ## Where spans begin -/

/-- The offset at which a span begins is the length of what stands in front of it. -/
theorem ReceiveBuffer.spanStart?_eq_some_iff {b : ReceiveBuffer} {d : Delimiters} {start : Nat} :
    b.spanStart? d = some start ↔ ∃ f, d.frame? b.bytes = some f ∧ f.dropped.length = start :=
  Option.map_eq_some_iff

/-- No span between two delimiters begins before the first one. -/
theorem Delimiters.length_le_of_frame? {d : Delimiters} {bytes before content after : Bytes} {f : Frame}
    (h : d.frame? bytes = some f) (hb : bytes = before ++ d.opening ++ content ++ d.closing ++ after) :
    f.dropped.length ≤ before.length := by
  obtain ⟨_, _, hbytes, hfirst, body, hspan, _⟩ := frame?_eq_some_iff.mp h
  have hfront : f.dropped ++ d.opening <+: bytes := ⟨body ++ f.rest, by simp [hbytes, hspan]⟩
  have hbefore : before ++ d.opening <+: bytes := ⟨content ++ d.closing ++ after, by simp [hb]⟩
  exact length_le_of_endsAtFirst hfirst hfront hbefore

/-- Spans of different kinds do not begin at the same place. -/
theorem SpanKind.eq_of_frames {kind other : SpanKind} {bytes : Bytes} {f g : Frame}
    (hf : kind.delimiters.frame? bytes = some f) (hg : other.delimiters.frame? bytes = some g)
    (hlen : f.dropped.length = g.dropped.length) : kind = other := by
  obtain ⟨_, _, hb, content, hs⟩ := Delimiters.eq_of_frame? hf
  obtain ⟨_, _, hb', content', hs'⟩ := Delimiters.eq_of_frame? hg
  rw [List.append_assoc] at hb hb'
  obtain ⟨_, hsame⟩ := List.append_inj (hb.symm.trans hb') hlen
  have hopening : kind.delimiters.opening <+: f.span ++ f.rest := by simp [hs]
  have hopening' : other.delimiters.opening <+: f.span ++ f.rest := by simp [hsame, hs']
  exact eq_of_openings hopening hopening'

/-! ## Rounds -/

/-- One round of the loop over the complete spans. -/
structure Round where
  /-- What was waited for. -/
  phase : Phase
  /-- What was buffered. -/
  buffer : ReceiveBuffer
  /-- The span that was taken, and what it left. -/
  span : Span SpanKind

namespace Round

/-- The number of bytes that the delimiters of the span take. -/
def delimiting (r : Round) : Nat :=
  r.span.kind.delimiters.opening.length + r.span.kind.delimiters.closing.length

/-- A round as it should be: the span is one that was watched for and that the buffer gives; it begins before every other complete
span of the kinds that were watched for; and it takes both of its delimiters out of the buffer, at least. -/
structure Sound (r : Round) : Prop where
  watched : r.span.kind ∈ watched r.phase
  extracted : r.buffer.extract r.span.kind.delimiters = (some r.span.bytes, ⟨r.span.rest⟩)
  earliest : ∃ start, r.buffer.spanStart? r.span.kind.delimiters = some start ∧
    (∀ kind ∈ Session.watched r.phase, kind ≠ r.span.kind →
      ∀ other, r.buffer.spanStart? kind.delimiters = some other → start < other) ∧
    ∀ kind ∈ Session.watched r.phase, ∀ before content after,
      r.buffer.bytes = before ++ kind.delimiters.opening ++ content ++ kind.delimiters.closing ++ after → start ≤ before.length
  shrinks : r.span.rest.length + r.delimiting ≤ r.buffer.length

end Round

namespace Session

/-- The round in which a session takes a span. -/
def round (s : Session) (span : Span SpanKind) : Round :=
  ⟨s.phase, s.buffer, span⟩

/-- The span that a session takes next makes a round as it should be. -/
theorem sound_round {s : Session} {span : Span SpanKind} (h : s.nextSpan? = some span) : (s.round span).Sound := by
  obtain ⟨hk, dropped, hf, hmin⟩ := Phase.frame?_of_firstSpan? (s.nextSpan?_eq ▸ h)
  have hextract : s.buffer.extract span.kind.delimiters = (some span.bytes, ⟨span.rest⟩) :=
    ReceiveBuffer.extract_eq_some_iff.mpr ⟨dropped, hf⟩
  refine ⟨hk, hextract, ⟨dropped.length, ReceiveBuffer.spanStart?_eq_some_iff.mpr ⟨_, hf, rfl⟩, ?_, ?_⟩, ?_⟩
  · intro kind hkind hne other hother
    obtain ⟨g, hg, rfl⟩ := ReceiveBuffer.spanStart?_eq_some_iff.mp hother
    refine Nat.lt_of_le_of_ne (hmin kind hkind g hg) fun hlen => hne ?_
    exact (SpanKind.eq_of_frames hf hg hlen).symm
  · intro kind hkind before content after hb
    obtain ⟨g, hg⟩ := Delimiters.exists_frame?_of_hasSpan kind.opening_ne_nil kind.closing_ne_nil ⟨before, content, after, hb⟩
    exact (hmin kind hkind g hg).trans (Delimiters.length_le_of_frame? hg hb)
  · have hlen := ReceiveBuffer.length_of_extract hextract
    rw [Nat.add_assoc] at hlen
    exact hlen

/-- The loop over the complete spans, with its rounds in order: it ends without a span, or with one that is fatal, or it goes on
from a span that was answered. -/
inductive Loops : Session → List Round → Run → Prop where
  | quiet {s : Session} : s.nextSpan? = none → Loops s [] ⟨s, [], none⟩
  | fatal {s : Session} {span : Span SpanKind} {e : Error} :
      s.nextSpan? = some span → span.kind.answer span.bytes = .error e → Loops s [s.round span] ⟨s.take span, [], some e⟩
  | answered {s : Session} {span : Span SpanKind} {a : Answer} {rounds : List Round} {run : Run} :
      s.nextSpan? = some span → span.kind.answer span.bytes = .ok a → Loops ((s.take span).give a) rounds run →
      Loops s (s.round span :: rounds) { run with actions := a.action s.credentials s.nonce :: run.actions }

/-- The loop ends. -/
theorem Drains.exists_loops {s : Session} {run : Run} (h : Drains s run) : ∃ rounds, Loops s rounds run := by
  induction h with
  | quiet hnone => exact ⟨[], .quiet hnone⟩
  | fatal hspan ha => exact ⟨_, .fatal hspan ha⟩
  | answered hspan ha _ ih =>
    obtain ⟨rounds, hrounds⟩ := ih
    exact ⟨_, .answered hspan ha hrounds⟩

/-- Every round of the loop is as it should be. -/
theorem Loops.sound {s : Session} {rounds : List Round} {run : Run} (h : Loops s rounds run) : ∀ r ∈ rounds, r.Sound := by
  induction h with
  | quiet => nofun
  | fatal hspan _ => exact List.forall_mem_singleton.mpr (sound_round hspan)
  | answered hspan _ _ ih => exact List.forall_mem_cons.mpr ⟨sound_round hspan, ih⟩

theorem buffer_give (s : Session) (span : Span SpanKind) (a : Answer) : ((s.take span).give a).buffer = ⟨span.rest⟩ := by
  cases a <;> rfl

/-- The delimiters of all rounds were in the buffer. -/
theorem Loops.sum_delimiting_le {s : Session} {rounds : List Round} {run : Run} (h : Loops s rounds run) :
    (rounds.map Round.delimiting).sum ≤ s.buffer.length := by
  induction h with
  | quiet => exact Nat.zero_le _
  | @fatal s span e hspan _ =>
    have hshrinks := (sound_round hspan).shrinks
    simp only [List.map_cons, List.map_nil, List.sum_cons, List.sum_nil]
    exact (Nat.le_add_left _ _).trans hshrinks
  | @answered s span a rounds run hspan _ _ ih =>
    have hshrinks : span.rest.length + (s.round span).delimiting ≤ s.buffer.length := (sound_round hspan).shrinks
    have hrest : (rounds.map Round.delimiting).sum ≤ span.rest.length := by
      rw [buffer_give] at ih
      exact ih
    simp only [List.map_cons, List.sum_cons]
    omega

/-! ## The end of the loop -/

/-- Where the loop ends without an error, nothing can be taken next. -/
theorem Drains.nextSpan?_eq_none {s : Session} {run : Run} (h : Drains s run) (he : run.error? = none) :
    run.session.nextSpan? = none := by
  induction h with
  | quiet hnone => exact hnone
  | fatal => cases he
  | answered _ _ _ ih => exact ih he

/-- Where nothing can be taken next, no kind that is watched for has a complete span. -/
theorem not_hasSpan_of_nextSpan? {s : Session} (h : s.nextSpan? = none) {kind : SpanKind} (hk : kind ∈ watched s.phase) :
    ¬kind.delimiters.HasSpan s.buffer.bytes := by
  intro hspan
  obtain ⟨f, hf⟩ := Delimiters.exists_frame?_of_hasSpan kind.opening_ne_nil kind.closing_ne_nil hspan
  obtain ⟨span, hs⟩ := Phase.exists_firstSpan? hk hf
  cases h.symm.trans hs

/-- A session that nothing can be taken from is left as it is by no bytes. -/
theorem handle_received_nil {s : Session} (hw : s.Waiting) (hh : s.held? = none) (h : s.nextSpan? = none) :
    s.handle (.received []) = (s, .ok []) := by
  have hreceiving : s.receiving [] = s := by simp [receiving, ReceiveBuffer.append]
  rw [handle_of_free hh, advance_received hw, hreceiving, drain_of_none h]
  rfl

/-- A call that leaves the session as it is, and returns no actions, does so as often as it is made. -/
theorem calls_replicate {s : Session} {op : Operation} (h : s.call op = (s, .ok [])) (n : Nat) :
    s.calls (List.replicate n op) = (s, List.replicate n []) := by
  induction n with
  | zero => rfl
  | succ n ih =>
    rw [List.replicate_succ, calls, h, ih]
    rfl

/-- A session that waits holds no error, whatever use was made of it before. -/
theorem Waiting.held?_of_uses {id : String} {credentials : Credentials} {nonce : String} {us : List Use}
    (h : ((new id credentials nonce).uses us).1.Waiting) : ((new id credentials nonce).uses us).1.held? = none := by
  obtain ⟨ops, ht, _⟩ := exists_calls_of_uses us (new id credentials nonce)
  have hnew : (new id credentials nonce).Shows credentials nonce .empty := shows_new id
  obtain ⟨o, hshows, _⟩ := shows_calls ops hnew
  rw [← ht] at hshows
  by_contra hne
  exact h.ne_closed (hshows.held hne)

/-- What comes of bytes that arrive, in two parts. Whatever use was made of a new session, if it waits for a stanza:
1. The loop over the complete spans ends, and the call ends with it. In each round the span that is taken is the one that begins
   first among the complete spans of the kinds that are watched for at that moment; the buffer gives it, and it loses both
   delimiters of the span, at least. So the delimiters of all rounds fit into what was buffered.
2. If the session is still open after the call, no kind that it then watches for has a complete span in the buffer. To be handed
   no bytes then returns no actions and no error, and changes nothing in the session, as often as it is done. -/
theorem quiescence_of_received (id : String) (credentials : Credentials) (nonce : String) (us : List Use) (bytes : Bytes)
    (hwaiting : ((new id credentials nonce).uses us).1.Waiting) :
    let s := ((new id credentials nonce).uses us).1
    let t := (s.handle (.received bytes)).1
    (∃ rounds run, Loops (s.receiving bytes) rounds run ∧ s.handle (.received bytes) = run.close ∧
        (∀ r ∈ rounds, r.Sound) ∧ (rounds.map Round.delimiting).sum ≤ s.buffer.length + bytes.length) ∧
      (t.phase ≠ .closed →
        (∀ kind ∈ watched t.phase, ¬kind.delimiters.HasSpan t.buffer.bytes) ∧ t.handle (.received []) = (t, .ok []) ∧
          ∀ n, t.calls (List.replicate n (.handle (.received []))) = (t, List.replicate n [])) := by
  intro s t
  have hheld := hwaiting.held?_of_uses
  have hdrains := drains_drain (s.receiving bytes)
  have hhandle : s.handle (.received bytes) = (s.receiving bytes).drain.close := by
    rw [handle_of_free hheld, advance_received hwaiting]
  refine ⟨?_, fun hopen => ?_⟩
  · obtain ⟨rounds, hloops⟩ := hdrains.exists_loops
    have hsum := hloops.sum_delimiting_le
    refine ⟨rounds, _, hloops, hhandle, hloops.sound, ?_⟩
    simpa only [receiving, ReceiveBuffer.length, ReceiveBuffer.append, List.length_append] using hsum
  · have ht : t = (s.receiving bytes).drain.close.1 := congrArg Prod.fst hhandle
    obtain ⟨he, hsession⟩ := error?_of_close_ne_closed (ht ▸ hopen)
    rw [hsession] at ht
    have hnone : t.nextSpan? = none := ht ▸ hdrains.nextSpan?_eq_none he
    have hquiet : t.handle (.received []) = (t, .ok []) :=
      handle_received_nil (ht ▸ hdrains.waiting hwaiting) ((congrArg held? ht).trans (hdrains.held.trans hheld)) hnone
    exact ⟨fun kind hk => not_hasSpan_of_nextSpan? hnone hk, hquiet, calls_replicate hquiet⟩

/-- Features that move the session on, and the beginning of a challenge behind them, which stays in the buffer. -/
theorem quiescence_of_received_features :
    let s := ((new "id" ⟨"host", "user", "password"⟩ "nonce").uses [.call (.handle .connected)]).1
    let bytes := Utf8.ofString "<stream:features><mechanism>DIGEST-MD5</mechanism></stream:features><challenge>YQ=="
    let t := (s.handle (.received bytes)).1
    s.Waiting ∧ t.phase = .awaitingChallenge ∧ t.buffer.bytes = Utf8.ofString "<challenge>YQ==" ∧
      ¬SpanKind.challenge.delimiters.HasSpan t.buffer.bytes ∧
        ∀ n, t.calls (List.replicate n (.handle (.received []))) = (t, List.replicate n []) := by
  intro s bytes t
  have hwaiting : s.Waiting := Or.inl rfl
  have hspan : (s.receiving bytes).nextSpan? =
      some ⟨.features, Utf8.ofString "<stream:features><mechanism>DIGEST-MD5</mechanism></stream:features>",
        Utf8.ofString "<challenge>YQ=="⟩ := by
    rw [nextSpan?_eq]
    decide +kernel
  have hquiet : Phase.awaitingChallenge.firstSpan? (Utf8.ofString "<challenge>YQ==") = none := by decide +kernel
  obtain ⟨hphase, hbuffer⟩ : t.phase = .awaitingChallenge ∧ t.buffer.bytes = Utf8.ofString "<challenge>YQ==" := by
    have hcall : t = (s.receiving bytes).drain.close.1 := congrArg Prod.fst (call_received rfl hwaiting bytes)
    rw [hcall, drain_of_ok hspan answer_features, drain_of_none]
    · exact ⟨rfl, rfl⟩
    · exact hquiet
  obtain ⟨hnone, _, hstill⟩ :=
    (quiescence_of_received "id" _ "nonce" [.call (.handle .connected)] bytes hwaiting).2 (by rw [hphase]; nofun)
  exact ⟨hwaiting, hphase, hbuffer, hnone .challenge (by rw [hphase]; decide), hstill⟩

end Session

end StreamAuth
