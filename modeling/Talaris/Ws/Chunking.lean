import Talaris.Ws.Agreement

/-!
# Feeding a stream in chunks

Every way of feeding the client follows `scan`, and `scan` does not see the cuts.
So the chunks of a stream give what the stream gives in one call, except that a
malformed header may be reported by one run while the other still waits for the rest
of it, and may be reported with another error value and reason text.
-/

namespace Talaris.Ws

/-! ## Two ways of feeding -/

/-- The client, the events handed out and the answer of a run. -/
abbrev Outcome (ε : Type) := WsClient × List ε × Except WsError Nat

/-- Feed chunk after chunk up to the first error; the counts add up. -/
def inChunks {ε : Type} (feed : WsClient → Bytes → Outcome ε) (w : WsClient) :
    List Bytes → Outcome ε
  | [] => (w, [], .ok 0)
  | chunk :: chunks =>
      match feed w chunk with
      | (w, events, .error e) => (w, events, .error e)
      | (w, events, .ok count) =>
          let (w, more, result) := inChunks feed w chunks
          (w, events ++ more, result.map (count + ·))

/-- `feed_recv`, then `poll_event` until it returns nothing more. -/
def WsClient.feedAndPoll [AcceptDigest] (w : WsClient) (bytes : Bytes) : Outcome Event :=
  let (w, events, error) := (w.feedRecv bytes).pollAll
  (w, events, match error with
    | none => .ok events.length
    | some e => .error e)

/-! ## Comparing outcomes -/

section Outcomes

variable {ε : Type}

/-- State and outbound frames are those of `w`. -/
def SameEnd (one two : WsClient) : Prop :=
  one.state = two.state ∧ one.tx.outbound = two.tx.outbound

/-- The first run reports a malformed header.  The second reports it too, or it waits for the
rest of the header in the state in which the first queued its Close frame. -/
def ReportsHeader (one two : Outcome ε) : Prop :=
  ∃ e, one.2.2 = .error (.frame e) ∧
    ((∃ e', two.2.2 = .error (.frame e') ∧ one.1.state = two.1.state ∧
        one.1.tx.outbound.map OutFrame.withoutReason =
          two.1.tx.outbound.map OutFrame.withoutReason) ∨
      (∃ count, two.2.2 = .ok count ∧ BadHeader two.1.pendingInput = true ∧
        HeaderCut two.1.pendingInput ∧
        ∃ reason, SameEnd one.1 (two.1.queueClose CloseCode.protocolError.asU16 reason)))

/-- The same events and the same end, up to the report of a malformed header. -/
def Agree (one two : Outcome ε) : Prop :=
  one.2.1 = two.2.1 ∧
    ((one.2.2 = two.2.2 ∧ SameEnd one.1 two.1) ∨ ReportsHeader one two ∨ ReportsHeader two one)

end Outcomes

/-! ## The prescribed reading goes on where it stopped -/

section Scans

variable [AcceptDigest] (config : WsConfig) (clientKey : Text)

/-- A reading that has not failed starts again where it stopped. -/
theorem scan_restart (c : Core) (r : Bytes)
    (alive : ∀ next error, (scan config clientKey c r).ending ≠ .failed next error) :
    scan config clientKey (scan config clientKey c r).core (scan config clientKey c r).rest =
      { scan config clientKey c r with events := [] } := by
  fun_induction scan config clientKey c r with
  | case1 c r judged => exact scan_needMore judged
  | case2 c r judged => exact scan_violation judged
  | case3 c r next error judged => exact absurd rfl (alive next error)
  | case4 c r next size event judged ih => exact ih alive

theorem scan_append_alive (c : Core) (r more : Bytes)
    (alive : ∀ next error, (scan config clientKey c r).ending ≠ .failed next error) :
    scan config clientKey c (r ++ more) =
      (scan config clientKey (scan config clientKey c r).core
        ((scan config clientKey c r).rest ++ more)).prepend (scan config clientKey c r).events := by
  have restart := scan_restart config clientKey c r alive
  have appended := scan_append config clientKey c r more
  cases ending : (scan config clientKey c r).ending with
  | waiting =>
      rw [ending] at appended
      exact appended
  | violated =>
      rw [ending] at appended
      have again := scan_append config clientKey (scan config clientKey c r).core
        (scan config clientKey c r).rest more
      simp only [restart, ending] at again
      rw [appended, again]
      simp [Scan.prepend, ending]
  | failed next error => exact absurd ending (alive next error)

/-- Where the reading stops at a malformed header, that header is what is left. -/
theorem scan_violated (c : Core) (r : Bytes)
    (violated : (scan config clientKey c r).ending = .violated) :
    BadHeader (scan config clientKey c r).rest = true := by
  fun_induction scan config clientKey c r with
  | case1 c r judged => cases violated
  | case2 c r judged =>
      unfold Core.judge at judged
      split at judged
      next => cases judged
      next => exact absurd judged (Core.handshake_ne_violation config clientKey c r)
      all_goals
        split at judged
        next bad => exact bad
        next => exact absurd judged (c.sound_ne_violation config r)
  | case3 c r next error judged => cases violated
  | case4 c r next size event judged ih => exact ih violated

end Scans

/-! ## Runs that follow the prescribed reading -/

section Follows

variable [AcceptDigest] {ε : Type} {select : Event → Option ε} {config : WsConfig}
  {clientKey : Text}

/-- The client waits at the end of the reading, all events counted. -/
structure Waits (config : WsConfig) (clientKey : Text) (out : Outcome ε) (s : Scan) : Prop where
  result : out.2.2 = .ok s.events.length
  stands : ∃ mode, Stands config clientKey out.1 mode s.core s.rest

/-- The run stops as the reading does. -/
def Stops (config : WsConfig) (clientKey : Text) (out : Outcome ε) (s : Scan) : Prop :=
  match s.ending with
  | .waiting => Waits config clientKey out s
  | .failed next error => out.2.2 = .error error ∧ SameWire out.1 next
  | .violated =>
      (Waits config clientKey out s ∧ ¬ HeaderComplete s.rest) ∨
        ∃ e reason, out.2.2 = .error (.frame e) ∧
          SameWire out.1 (s.core.queueClose CloseCode.protocolError.asU16 reason)

/-- A run that hands out the selected events of the reading and stops as it does. -/
structure Follows (select : Event → Option ε) (config : WsConfig) (clientKey : Text)
    (out : Outcome ε) (s : Scan) : Prop where
  events : out.2.1 = s.events.filterMap select
  stops : Stops config clientKey out s

/-- A way of feeding that follows the reading from every frame boundary. -/
def Faithful (select : Event → Option ε) (feed : WsClient → Bytes → Outcome ε) : Prop :=
  ∀ {config clientKey w mode c r}, Stands config clientKey w mode c r → ∀ bytes,
    Follows select config clientKey (feed w bytes) (scan config clientKey c (r ++ bytes))

omit [AcceptDigest] in
/-- A client that has read `d` follows the scan that `d` conforms to. -/
theorem Follows.of_reads {d : Decoded} {s : Scan} {out : Outcome ε} (conforms : d.Conforms s)
    (reads : Reads config clientKey out.1 d d.error)
    (selected : out.2.1 = d.events.filterMap select) (answered : out.2.2 = d.answer 0) :
    Follows select config clientKey out s := by
  obtain ⟨same, ends⟩ := conforms
  refine ⟨by rw [selected, same], ?_⟩
  have waits (clean : d.error = none) (core : d.core = s.core) (rest : d.rest = s.rest) :
      Waits config clientKey out s := by
    refine ⟨?_, ?_⟩
    · simp [answered, Decoded.answer, clean, same]
    · rw [← core, ← rest]
      exact reads.stands clean
  unfold Stops
  cases ending : s.ending with
  | waiting =>
      simp only [ending] at ends ⊢
      obtain ⟨clean, core, rest⟩ := ends
      exact waits clean core rest
  | failed next error =>
      simp only [ending] at ends ⊢
      obtain ⟨failed, core⟩ := ends
      exact ⟨by simp [answered, Decoded.answer, failed], core ▸ reads.wire⟩
  | violated =>
      simp only [ending] at ends ⊢
      obtain ⟨clean, core, rest, incomplete⟩ | ⟨e, reason, failed, core⟩ := ends
      · exact .inl ⟨waits clean core rest, incomplete⟩
      · exact .inr ⟨e, reason, by simp [answered, Decoded.answer, failed], core ▸ reads.wire⟩

theorem drainDataEventsFromIngress_faithful :
    Faithful Event.data? WsClient.drainDataEventsFromIngress := by
  intro config clientKey w mode c r stands bytes
  have drained : Drained _ _ _ _ _ _ (w.drainDataEventsFromIngress bytes) :=
    drainFromIngress_spec dataEventOps_lawful stands (fun _ => rfl) bytes
  refine Follows.of_reads (decode_conforms config clientKey fastFault_lawful mode c _)
    drained.reads ?_ drained.result
  rw [drained.sink, dataEventOps_delivered]
  rfl

theorem feedAndPoll_faithful : Faithful some WsClient.feedAndPoll := by
  intro config clientKey w mode c r stands bytes
  obtain ⟨events, reads⟩ := pollAll_spec (stands.feedRecv bytes)
  refine Follows.of_reads (decode_conforms config clientKey borrowedFault_lawful mode c _)
    (reads.error ▸ reads) (by simpa [WsClient.feedAndPoll] using events) ?_
  cases error : (decode config clientKey borrowedFault mode c (r ++ bytes)).error with
  | none => simp [WsClient.feedAndPoll, events, Decoded.answer, reads.error, error]
  | some e => simp [WsClient.feedAndPoll, Decoded.answer, reads.error, error]

/-! ### Chunk after chunk -/

/-- A run that has stopped is what the whole stream gives. -/
theorem Follows.extend {out : Outcome ε} {c : Core} {r : Bytes} {e : WsError}
    (follows : Follows select config clientKey out (scan config clientKey c r))
    (failed : out.2.2 = .error e) (more : Bytes) :
    Follows select config clientKey out (scan config clientKey c (r ++ more)) := by
  obtain ⟨events, stops⟩ := follows
  have appended := scan_append config clientKey c r more
  unfold Stops at stops
  cases ending : (scan config clientKey c r).ending with
  | waiting =>
      simp only [ending] at stops
      rw [stops.result] at failed
      cases failed
  | failed next error =>
      simp only [ending] at stops appended
      rw [appended]
      refine ⟨events, ?_⟩
      simpa only [Stops, ending] using stops
  | violated =>
      simp only [ending] at stops appended
      rw [appended]
      refine ⟨events, ?_⟩
      obtain ⟨waits, -⟩ | reports := stops
      · rw [waits.result] at failed
        cases failed
      · simpa only [Stops, ending] using .inr reports

/-- The reading makes no progress here, and no path reports an error. -/
def Rests (config : WsConfig) (clientKey : Text) (c : Core) (r : Bytes) : Prop :=
  scan config clientKey c r = ⟨[], c, r, .waiting⟩ ∨
    (scan config clientKey c r = ⟨[], c, r, .violated⟩ ∧ ¬ HeaderComplete r)

/-- A run without an error leaves its client waiting where the reading rests. -/
theorem Follows.rests {out : Outcome ε} {c : Core} {r : Bytes} {count : Nat}
    (follows : Follows select config clientKey out (scan config clientKey c r))
    (waited : out.2.2 = .ok count) :
    Waits config clientKey out (scan config clientKey c r) ∧
      (∀ next error, (scan config clientKey c r).ending ≠ .failed next error) ∧
      Rests config clientKey (scan config clientKey c r).core (scan config clientKey c r).rest := by
  have stops := follows.stops
  have restart := scan_restart config clientKey c r
  unfold Stops at stops
  cases ending : (scan config clientKey c r).ending with
  | waiting =>
      simp only [ending] at stops restart
      exact ⟨stops, by simp, .inl (restart (by simp))⟩
  | violated =>
      simp only [ending] at stops restart
      obtain ⟨waits, incomplete⟩ | ⟨e, reason, failed, -⟩ := stops
      · exact ⟨waits, by simp, .inr ⟨restart (by simp), incomplete⟩⟩
      · rw [waited] at failed
        cases failed
  | failed next error =>
      simp only [ending] at stops
      rw [waited] at stops
      cases stops.1

omit [AcceptDigest] in
/-- Two runs one after the other. -/
theorem Follows.join {out next : Outcome ε} {s s' : Scan}
    (selected : out.2.1 = s.events.filterMap select)
    (follows : Follows select config clientKey next s') :
    Follows select config clientKey
      (next.1, out.2.1 ++ next.2.1, next.2.2.map (s.events.length + ·)) (s'.prepend s.events) := by
  obtain ⟨events, stops⟩ := follows
  refine ⟨by simp [selected, events, Scan.prepend], ?_⟩
  have waits (waiting : Waits config clientKey next s') :
      Waits config clientKey
        (next.1, out.2.1 ++ next.2.1, next.2.2.map (s.events.length + ·)) (s'.prepend s.events) :=
    ⟨by simp [waiting.result, Scan.prepend, Except.map], waiting.stands⟩
  have kept : (s'.prepend s.events).ending = s'.ending := rfl
  unfold Stops at stops ⊢
  rw [kept]
  cases ending : s'.ending with
  | waiting =>
      simp only [ending] at stops ⊢
      exact waits stops
  | failed core error =>
      simp only [ending] at stops ⊢
      exact ⟨by simp [stops.1, Except.map], stops.2⟩
  | violated =>
      simp only [ending] at stops ⊢
      obtain ⟨waiting, incomplete⟩ | ⟨e, reason, failed, wire⟩ := stops
      · exact .inl ⟨waits waiting, incomplete⟩
      · exact .inr ⟨e, reason, by simp [failed, Except.map], wire⟩

/-- One more chunk in front. -/
theorem inChunks_cons {feed : WsClient → Bytes → Outcome ε} (faithful : Faithful select feed)
    {w : WsClient} {mode : Mode} {c : Core} {r : Bytes} (stands : Stands config clientKey w mode c r)
    (chunk : Bytes) (chunks : List Bytes)
    (tail : ∀ {w mode c r}, Stands config clientKey w mode c r → Rests config clientKey c r →
      Follows select config clientKey (inChunks feed w chunks)
        (scan config clientKey c (r ++ chunks.flatten))) :
    Follows select config clientKey (inChunks feed w (chunk :: chunks))
      (scan config clientKey c (r ++ (chunk ++ chunks.flatten))) := by
  have first := faithful stands chunk
  rw [← List.append_assoc]
  unfold inChunks
  split
  next w₁ events e fed =>
    rw [fed] at first
    exact first.extend rfl chunks.flatten
  next w₁ events count fed =>
    rw [fed] at first
    obtain ⟨waits, alive, rests⟩ := first.rests rfl
    obtain ⟨mode₁, stands₁⟩ := waits.stands
    have counted := waits.result
    simp only [Except.ok.injEq] at counted
    rw [scan_append_alive config clientKey c (r ++ chunk) chunks.flatten alive, counted]
    exact Follows.join first.events (tail stands₁ rests)

theorem inChunks_rests {feed : WsClient → Bytes → Outcome ε} (faithful : Faithful select feed)
    {w : WsClient} {mode : Mode} {c : Core} {r : Bytes} (stands : Stands config clientKey w mode c r)
    (rests : Rests config clientKey c r) (chunks : List Bytes) :
    Follows select config clientKey (inChunks feed w chunks)
      (scan config clientKey c (r ++ chunks.flatten)) := by
  induction chunks generalizing w mode c r with
  | nil =>
      simp only [List.flatten_nil, List.append_nil]
      obtain waiting | ⟨violated, incomplete⟩ := rests
      · rw [waiting]
        exact ⟨rfl, rfl, mode, stands⟩
      · rw [violated]
        exact ⟨rfl, .inl ⟨⟨rfl, mode, stands⟩, incomplete⟩⟩
  | cons chunk chunks ih =>
      exact inChunks_cons faithful stands chunk chunks fun stands rests => ih stands rests

theorem inChunks_follows {feed : WsClient → Bytes → Outcome ε} (faithful : Faithful select feed)
    {w : WsClient} {mode : Mode} {c : Core} {r : Bytes} (stands : Stands config clientKey w mode c r)
    (chunk : Bytes) (chunks : List Bytes) :
    Follows select config clientKey (inChunks feed w (chunk :: chunks))
      (scan config clientKey c (r ++ (chunk ++ chunks.flatten))) :=
  inChunks_cons faithful stands chunk chunks fun stands rests =>
    inChunks_rests faithful stands rests chunks

/-! ### Two runs over one stream -/

omit [AcceptDigest] in
theorem SameWire.sameEnd {one two : WsClient} {c : Core} (first : SameWire one c)
    (second : SameWire two c) : SameEnd one two :=
  ⟨first.state.trans second.state.symm, first.outbound.trans second.outbound.symm⟩

omit [AcceptDigest] in
theorem Stands.wire {w : WsClient} {mode : Mode} {c : Core} {r : Bytes}
    (stands : Stands config clientKey w mode c r) : SameWire w c := by
  have wire := stands.holds.wire
  exact ⟨by simpa using wire.state, by simpa using wire.outbound⟩

omit [AcceptDigest] in
/-- A run that reports the malformed header against one that waits in it. -/
theorem reportsHeader_of_waits {one two : Outcome ε} {s : Scan} {e : FrameError} {reason : String}
    (failed : one.2.2 = .error (.frame e))
    (wire : SameWire one.1 (s.core.queueClose CloseCode.protocolError.asU16 reason))
    (waits : Waits config clientKey two s) (incomplete : ¬ HeaderComplete s.rest)
    (bad : BadHeader s.rest = true) : ReportsHeader one two := by
  obtain ⟨mode, stands⟩ := waits.stands
  have pending := stands.pendingInput incomplete
  have long : 2 ≤ s.rest.length := by
    match rest : s.rest with
    | [] => simp [rest, BadHeader] at bad
    | [_] => simp [rest, BadHeader] at bad
    | _ :: _ :: _ => simp
  refine ⟨e, failed, .inr ⟨_, waits.result, ?_⟩⟩
  rw [pending]
  exact ⟨bad, ⟨long, incomplete⟩, reason, wire.sameEnd (stands.wire.queueClose _ reason)⟩

/-- Two runs that follow one reading agree. -/
theorem Follows.agree {one two : Outcome ε} {c : Core} {r : Bytes}
    (first : Follows select config clientKey one (scan config clientKey c r))
    (second : Follows select config clientKey two (scan config clientKey c r)) :
    Agree one two := by
  refine ⟨first.events.trans second.events.symm, ?_⟩
  have bad := scan_violated config clientKey c r
  have stopsFirst := first.stops
  have stopsSecond := second.stops
  unfold Stops at stopsFirst stopsSecond
  have bothWait (w₁ : Waits config clientKey one (scan config clientKey c r))
      (w₂ : Waits config clientKey two (scan config clientKey c r)) :
      one.2.2 = two.2.2 ∧ SameEnd one.1 two.1 := by
    obtain ⟨mode₁, stands₁⟩ := w₁.stands
    obtain ⟨mode₂, stands₂⟩ := w₂.stands
    exact ⟨w₁.result.trans w₂.result.symm, stands₁.wire.sameEnd stands₂.wire⟩
  cases ending : (scan config clientKey c r).ending with
  | waiting =>
      simp only [ending] at stopsFirst stopsSecond
      exact .inl (bothWait stopsFirst stopsSecond)
  | failed next error =>
      simp only [ending] at stopsFirst stopsSecond
      exact .inl ⟨stopsFirst.1.trans stopsSecond.1.symm, stopsFirst.2.sameEnd stopsSecond.2⟩
  | violated =>
      simp only [ending] at stopsFirst stopsSecond
      obtain ⟨w₁, incomplete⟩ | ⟨e₁, reason₁, failed₁, wire₁⟩ := stopsFirst
      · obtain ⟨w₂, -⟩ | ⟨e₂, reason₂, failed₂, wire₂⟩ := stopsSecond
        · exact .inl (bothWait w₁ w₂)
        · exact .inr (.inr (reportsHeader_of_waits failed₂ wire₂ w₁ incomplete (bad ending)))
      · obtain ⟨w₂, incomplete⟩ | ⟨e₂, reason₂, failed₂, wire₂⟩ := stopsSecond
        · exact .inr (.inl (reportsHeader_of_waits failed₁ wire₁ w₂ incomplete (bad ending)))
        · refine .inr (.inl ⟨e₁, failed₁, .inl ⟨e₂, failed₂, ?_, ?_⟩⟩)
          · rw [wire₁.state, wire₂.state]
            exact Core.queueClose_state _ _ _ _
          · rw [wire₁.outbound, wire₂.outbound]
            exact Core.queueClose_withoutReason _ _ _ _

end Follows

/-! ## Chunking -/

section Chunks

variable [AcceptDigest] {w : WsClient}

/-- However a stream is cut, both ways of feeding give what one call gives, up to the report of
a malformed header. -/
theorem inChunks_agree (reached : clientMachine.Reach errorFree w) (chunk : Bytes)
    (chunks : List Bytes) :
    Agree (inChunks WsClient.drainDataEventsFromIngress w (chunk :: chunks))
        (w.drainDataEventsFromIngress (chunk ++ chunks.flatten)) ∧
      Agree (inChunks WsClient.feedAndPoll w (chunk :: chunks))
        (w.feedAndPoll (chunk ++ chunks.flatten)) := by
  obtain ⟨mode, c, r, stands⟩ := reached_stands reached
  constructor
  · exact (inChunks_follows drainDataEventsFromIngress_faithful stands chunk chunks).agree
      (drainDataEventsFromIngress_faithful stands _)
  · exact (inChunks_follows feedAndPoll_faithful stands chunk chunks).agree
      (feedAndPoll_faithful stands _)

end Chunks

attribute [local instance] Sample.digest

/-- The upgrade response with two bytes of a frame that has a reserved bit set.  In one call the
drain reports the bad header; in two calls the streaming parser waits for the rest of it. -/
theorem inChunks_agree_rsv :
    Agree (inChunks WsClient.drainDataEventsFromIngress Sample.client [Sample.response, [0xC1, 0xFE]])
      (Sample.client.drainDataEventsFromIngress (Sample.response ++ ([0xC1, 0xFE] ++ []))) :=
  (inChunks_agree Sample.client_reached Sample.response [[0xC1, 0xFE]]).1

/-- On the same input the two runs do not have the same first error. -/
theorem inChunks_differs :
    clientMachine.Reach errorFree Sample.client ∧
      errorOf (inChunks WsClient.drainDataEventsFromIngress Sample.client
        [Sample.response, [0xC1, 0xFE]]).2.2 = none ∧
      errorOf (Sample.client.drainDataEventsFromIngress
        [Sample.response, [0xC1, 0xFE]].flatten).2.2 = some (.frame .rsvBitsSet) :=
  ⟨Sample.client_reached, by decide +kernel, by decide +kernel⟩

end Talaris.Ws
