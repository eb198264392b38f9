import Talaris.Ws.Session

/-!
# A client in use

A connection drives its client by the public calls and takes the pending bytes over in one
piece.  Whatever the calls are, they only add to what the client has written (`Uses.grows`).
-/

namespace Talaris.Ws

namespace WsClient

/-- Everything that the client has put into its transmit buffer. -/
def written (w : WsClient) : Bytes :=
  (if w.handshakeStarted then w.upgradeRequest else []) ++ framesOnWire w.tx.queued

variable [AcceptDigest]

/-- One public call, acknowledgements apart. -/
inductive Use : WsClient → WsClient → Prop where
  | begun (w : WsClient) : Use w w.beginHandshake.1
  | called (w : WsClient) {call : ClientCall} :
      (∀ n, call ≠ .ackTx n) → Use w (w.call call).1

/-- The second client comes from the first by calls. -/
def Uses : WsClient → WsClient → Prop := Relation.ReflTransGen Use

theorem Uses.refl (w : WsClient) : w.Uses w := Relation.ReflTransGen.refl

theorem Uses.trans {w w' w'' : WsClient} (first : w.Uses w') (second : w'.Uses w'') :
    w.Uses w'' := Relation.ReflTransGen.trans first second

theorem Use.uses {w w' : WsClient} (use : w.Use w') : w.Uses w' := Relation.ReflTransGen.single use

/-! ## The calls -/

theorem beginHandshake_uses (w : WsClient) : w.Uses w.beginHandshake.1 := (Use.begun w).uses

theorem call_uses (w : WsClient) (call : ClientCall) (other : ∀ n, call ≠ .ackTx n) :
    w.Uses (w.call call).1 := (Use.called w other).uses

theorem pollEvent_uses (w : WsClient) : w.Uses w.pollEvent.1 := by
  have same : (w.call .pollEvent).1 = w.pollEvent.1 := by
    unfold WsClient.call
    dsimp only
    split <;> simp_all
  rw [← same]
  exact w.call_uses .pollEvent (by simp)

theorem pollAll_uses (w : WsClient) : w.Uses w.pollAll.1 := by
  fun_induction pollAll w with
  | case1 w w₁ polled | case2 w w₁ e polled =>
      have first := w.pollEvent_uses
      rw [polled] at first
      exact first
  | case3 w w₁ event polled w₂ events error tail ih =>
      have first := w.pollEvent_uses
      rw [polled] at first
      rw [tail] at ih
      exact first.trans ih

theorem Use.before {w w' : WsClient} (use : w.Use w') : w.Before w' := by
  cases use with
  | begun =>
      obtain same | ⟨tx, begun, -⟩ := w.beginHandshake_cases
      · exact before_of_state (congrArg WsClient.state same)
      · refine before_of_state ?_
        rw [begun]
  | @called call => exact w.call_before call

theorem Uses.before {w w' : WsClient} (uses : w.Uses w') : w.Before w' := by
  induction uses with
  | refl => exact .refl w
  | tail _ use ih => exact ih.trans use.before

/-! ## What holds of a client in use -/

/-- The invariant of the client of a connection. -/
structure InUse (w : WsClient) : Prop where
  orderly : Session.Orderly ⟨w, []⟩
  sound : w.tx.Sound

theorem newClient_inUse {config : WsConfig} {rng : SystemRandom} {w : WsClient}
    (made : WsClient.newClient config rng = .ok w) : w.InUse := by
  obtain ⟨-, -, -, -, buf, head, -⟩ := newClient_fresh made
  refine ⟨.start ⟨⟨config, rng, made⟩, rfl⟩, ?_⟩
  simp [TxQueue.Sound, head]

omit [AcceptDigest] in
/-- The request is queued behind what is pending. -/
theorem beginHandshake_grows {w : WsClient} (inUse : w.InUse) :
    w.beginHandshake.1.tx.Sound ∧ ∃ bytes,
      w.beginHandshake.1.pendingTx = w.pendingTx ++ bytes ∧
        w.beginHandshake.1.written = w.written ++ bytes := by
  unfold beginHandshake
  split
  next => exact ⟨inUse.sound, [], by simp, by simp⟩
  next connecting =>
    split
    next => exact ⟨inUse.sound, [], by simp, by simp⟩
    next fresh =>
      rw [ne_eq, Decidable.not_not] at connecting
      have outbound := inUse.orderly.disciplined.quiet connecting
      have empty : w.tx.queued = [] := List.map_eq_nil_iff.mp outbound
      obtain ⟨compacted, same⟩ := TxQueue.compactTxIfNeeded_spec inUse.sound 256
      obtain ⟨sound, pending⟩ := TxQueue.extend_spec compacted w.upgradeRequest
      have queued : (w.tx.compactTxIfNeeded 256).queued = [] := by
        rw [TxQueue.compactTxIfNeeded_queued, empty]
      refine ⟨sound, w.upgradeRequest, ?_, ?_⟩
      · refine pending.trans ?_
        rw [same]
        rfl
      · simp only [written, fresh, empty, framesOnWire, List.flatMap_nil, List.append_nil,
          TxQueue.extend, queued]
        rfl

theorem call_grows {w : WsClient} (inUse : w.InUse) {call : ClientCall}
    (other : ∀ n, call ≠ .ackTx n) :
    (w.call call).1.tx.Sound ∧ ∃ bytes,
      (w.call call).1.pendingTx = w.pendingTx ++ bytes ∧
        (w.call call).1.written = w.written ++ bytes := by
  obtain ⟨-, moves⟩ := w.call_drives other inUse.orderly.framed
  obtain ⟨sound, added, queued, pending, -⟩ := moves.extends inUse.sound
  refine ⟨sound, framesOnWire added, pending, ?_⟩
  have request : (w.call call).1.upgradeRequest = w.upgradeRequest := by
    simp only [upgradeRequest, moves.config, moves.clientKey]
  simp only [written, moves.started, request, queued, framesOnWire_append, List.append_assoc]

theorem Use.grows {w w' : WsClient} (use : w.Use w') (inUse : w.InUse) :
    w'.InUse ∧ ∃ bytes, w'.pendingTx = w.pendingTx ++ bytes ∧ w'.written = w.written ++ bytes := by
  cases use with
  | begun =>
      obtain ⟨sound, grows⟩ := beginHandshake_grows inUse
      exact ⟨⟨inUse.orderly.begin, sound⟩, grows⟩
  | @called call other =>
      obtain ⟨sound, grows⟩ := call_grows inUse other
      obtain ⟨framed, stands, disciplined⟩ := inUse.orderly.call call
      exact ⟨⟨⟨framed, stands, disciplined⟩, sound⟩, grows⟩

/-- Calls add the same bytes to the pending ones and to all that was written. -/
theorem Uses.grows {w w' : WsClient} (uses : w.Uses w') (inUse : w.InUse) :
    w'.InUse ∧ ∃ bytes, w'.pendingTx = w.pendingTx ++ bytes ∧ w'.written = w.written ++ bytes := by
  induction uses with
  | refl => exact ⟨inUse, [], by simp, by simp⟩
  | tail _ use ih =>
      obtain ⟨middle, bytes, pending, written⟩ := ih
      obtain ⟨last, more, pending', written'⟩ := use.grows middle
      refine ⟨last, bytes ++ more, ?_, ?_⟩
      · rw [pending', pending, List.append_assoc]
      · rw [written', written, List.append_assoc]

/-- Taking all pending bytes over changes nothing else. -/
theorem ackTx_all {w : WsClient} (inUse : w.InUse) :
    (w.ackTx w.pendingTx.length).InUse ∧ (w.ackTx w.pendingTx.length).pendingTx = [] ∧
      (w.ackTx w.pendingTx.length).written = w.written := by
  obtain ⟨sound, whole⟩ := TxQueue.ackTx_spec inUse.sound (n := w.tx.pendingTx.length) (Nat.le_refl _)
  obtain ⟨framed, stands, disciplined⟩ := inUse.orderly.call (.ackTx w.pendingTx.length)
  refine ⟨⟨⟨framed, stands, disciplined⟩, sound⟩, ?_, ?_⟩
  · rw [List.take_length] at whole
    exact List.append_right_eq_self.mp whole
  · simp only [written, ackTx, TxQueue.ackTx_queued]
    rfl

end WsClient

end Talaris.Ws
