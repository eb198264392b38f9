import Talaris.Ws.Verdict

/-!
# Decoding a byte stream

`scan` reads a stream frame by frame with the verdicts of `Core.judge`; `decode` reads
it with those of a path.  `scan` does not see how the stream was cut
(`scan_append`), and every path follows it (`decode_conforms`) except that a malformed
header may be reported later, with another error or under another reason text.
-/

namespace Talaris.Ws

/-- Why a reading stops. -/
inductive Ending where
  | waiting
  | violated
  | failed (next : Core) (error : WsError)

/-- Events of a stream, and where and why its reading stops. -/
structure Scan where
  events : List Event
  core : Core
  rest : Bytes
  ending : Ending

def Scan.prepend (events : List Event) (s : Scan) : Scan := { s with events := events ++ s.events }

/-- A frame as a path reads it: the event it completes, and whether it took the direct path. -/
structure Item where
  event : Option Event
  direct : Bool
  deriving DecidableEq, Repr

/-- The reading of a path. -/
structure Decoded where
  items : List Item
  core : Core
  rest : Bytes
  error : Option WsError

namespace Decoded

def prepend (items : List Item) (d : Decoded) : Decoded := { d with items := items ++ d.items }

def events (d : Decoded) : List Event := d.items.filterMap Item.event

/-- The data messages among the events. -/
def messages (d : Decoded) : List DataEvent := d.events.filterMap Event.data?

end Decoded

@[simp] theorem Scan.prepend_nil (s : Scan) : s.prepend [] = s := rfl

@[simp] theorem Scan.prepend_prepend (first second : List Event) (s : Scan) :
    (s.prepend second).prepend first = s.prepend (first ++ second) := by
  simp [Scan.prepend]

@[simp] theorem Decoded.prepend_nil (d : Decoded) : d.prepend [] = d := rfl

@[simp] theorem Decoded.prepend_prepend (first second : List Item) (d : Decoded) :
    (d.prepend second).prepend first = d.prepend (first ++ second) := by
  simp [Decoded.prepend]

@[simp] theorem Decoded.events_prepend (items : List Item) (d : Decoded) :
    (d.prepend items).events = items.filterMap Item.event ++ d.events := by
  simp [Decoded.events, Decoded.prepend]

/-- A path reads what `scan` reads, up to the report of a malformed header. -/
def Decoded.Conforms (d : Decoded) (s : Scan) : Prop :=
  d.events = s.events ∧
    match s.ending with
    | .waiting => d.error = none ∧ d.core = s.core ∧ d.rest = s.rest
    | .failed next error => d.error = some error ∧ d.core = next
    | .violated =>
        (d.error = none ∧ d.core = s.core ∧ d.rest = s.rest ∧ ¬ HeaderComplete s.rest) ∨
          ∃ e reason, d.error = some (.frame e) ∧
            d.core = s.core.queueClose CloseCode.protocolError.asU16 reason

theorem Decoded.Conforms.prepend {d : Decoded} {s : Scan} (conforms : d.Conforms s)
    (item : Item) : (d.prepend [item]).Conforms (s.prepend item.event.toList) := by
  refine ⟨?_, conforms.2⟩
  cases event : item.event <;> simp [Scan.prepend, conforms.1, event]

section Streams

variable [AcceptDigest] (config : WsConfig) (clientKey : Text)

/-- The prescribed reading of a stream. -/
def scan (c : Core) (r : Bytes) : Scan :=
  match _judged : c.judge config clientKey r with
  | .needMore => ⟨[], c, r, .waiting⟩
  | .violation => ⟨[], c, r, .violated⟩
  | .fail next error => ⟨[], c, r, .failed next error⟩
  | .frame next size event => (scan next (r.drop size)).prepend event.toList
  termination_by r.length
  decreasing_by
    have := Core.judge_frame_size config clientKey _judged
    simp only [List.length_drop]
    omega

/-- A frame that the direct path accepts. -/
def directFrame (r : Bytes) : Bool :=
  match parseCompleteServerDataFrame config r with
  | .ok (.parsed _ _) => true
  | _ => false

/-- The direct path takes the next frame. -/
def isDirect (mode : Mode) (c : Core) (r : Bytes) : Bool :=
  mode = .idle && c.state = .isOpen && c.message.isNone && directFrame config r

/-- The reading of a path with an early rule, from the mode its parser is in. -/
def decode (fault : Fault) (mode : Mode) (c : Core) (r : Bytes) : Decoded :=
  match _stepped : c.step config clientKey fault mode r with
  | .needMore | .violation => ⟨[], c, r, none⟩
  | .fail next error => ⟨[], next, r, some error⟩
  | .frame next size event =>
      (decode fault .idle next (r.drop size)).prepend [⟨event, isDirect config mode c r⟩]
  termination_by r.length
  decreasing_by
    have := Core.step_frame_size config clientKey _stepped
    simp only [List.length_drop]
    omega

/-! ## Unfolding -/

section Unfold

variable {config clientKey}

theorem scan_needMore {c : Core} {r : Bytes} (judged : c.judge config clientKey r = .needMore) :
    scan config clientKey c r = ⟨[], c, r, .waiting⟩ := by
  rw [scan]
  split <;> simp_all

theorem scan_violation {c : Core} {r : Bytes} (judged : c.judge config clientKey r = .violation) :
    scan config clientKey c r = ⟨[], c, r, .violated⟩ := by
  rw [scan]
  split <;> simp_all

theorem scan_fail {c next : Core} {r : Bytes} {error : WsError}
    (judged : c.judge config clientKey r = .fail next error) :
    scan config clientKey c r = ⟨[], c, r, .failed next error⟩ := by
  rw [scan]
  split <;> simp_all

theorem scan_frame {c next : Core} {r : Bytes} {size : Nat} {event : Option Event}
    (judged : c.judge config clientKey r = .frame next size event) :
    scan config clientKey c r =
      (scan config clientKey next (r.drop size)).prepend event.toList := by
  rw [scan]
  split <;> simp_all

variable {fault : Fault} {mode : Mode}

theorem decode_needMore {c : Core} {r : Bytes}
    (stepped : c.step config clientKey fault mode r = .needMore) :
    decode config clientKey fault mode c r = ⟨[], c, r, none⟩ := by
  rw [decode]
  split <;> simp_all

theorem decode_fail {c next : Core} {r : Bytes} {error : WsError}
    (stepped : c.step config clientKey fault mode r = .fail next error) :
    decode config clientKey fault mode c r = ⟨[], next, r, some error⟩ := by
  rw [decode]
  split <;> simp_all

theorem decode_frame {c next : Core} {r : Bytes} {size : Nat} {event : Option Event}
    (stepped : c.step config clientKey fault mode r = .frame next size event) :
    decode config clientKey fault mode c r =
      (decode config clientKey fault .idle next (r.drop size)).prepend
        [⟨event, isDirect config mode c r⟩] := by
  rw [decode]
  split <;> simp_all

/-- The mode matters through the step and the path only. -/
theorem decode_mode {mode' : Mode} {c : Core} {r : Bytes}
    (sameStep : c.step config clientKey fault mode r = c.step config clientKey fault mode' r)
    (samePath : isDirect config mode c r = isDirect config mode' c r) :
    decode config clientKey fault mode c r = decode config clientKey fault mode' c r := by
  cases stepped : c.step config clientKey fault mode r with
  | needMore => rw [decode_needMore stepped, decode_needMore (sameStep.symm.trans stepped)]
  | violation => exact absurd stepped (Core.step_ne_violation config clientKey c fault mode r)
  | fail next error => rw [decode_fail stepped, decode_fail (sameStep.symm.trans stepped)]
  | frame next size event =>
      rw [decode_frame stepped, decode_frame (sameStep.symm.trans stepped), samePath]

end Unfold

/-- The first item tells the path; without items no byte is consumed. -/
theorem decode_head (fault : Fault) (mode : Mode) (c : Core) (r : Bytes) :
    ((decode config clientKey fault mode c r).items = [] ∧
        (decode config clientKey fault mode c r).rest = r) ∨
      ∃ event items, (decode config clientKey fault mode c r).items =
        ⟨event, isDirect config mode c r⟩ :: items := by
  cases stepped : c.step config clientKey fault mode r with
  | needMore =>
      rw [decode_needMore stepped]
      exact .inl ⟨rfl, rfl⟩
  | violation => exact absurd stepped (Core.step_ne_violation config clientKey c fault mode r)
  | fail next error =>
      rw [decode_fail stepped]
      exact .inl ⟨rfl, rfl⟩
  | frame next size event =>
      rw [decode_frame stepped]
      exact .inr ⟨event, _, rfl⟩

/-! ## Cuts do not matter -/

/-- Where a reading waits, it goes on with the bytes that follow; elsewhere they change
nothing. -/
theorem scan_append (c : Core) (r more : Bytes) :
    scan config clientKey c (r ++ more) =
      match (scan config clientKey c r).ending with
      | .waiting =>
          (scan config clientKey (scan config clientKey c r).core
            ((scan config clientKey c r).rest ++ more)).prepend (scan config clientKey c r).events
      | .violated | .failed _ _ =>
          { scan config clientKey c r with rest := (scan config clientKey c r).rest ++ more } := by
  fun_induction scan config clientKey c r with
  | case1 c r judged => rfl
  | case2 c r judged =>
      have settled : c.judge config clientKey r ≠ .needMore := by simp [judged]
      have extended := Core.judge_append config clientKey settled more
      rw [scan_violation (extended.trans judged)]
  | case3 c r next error judged =>
      have settled : c.judge config clientKey r ≠ .needMore := by simp [judged]
      have extended := Core.judge_append config clientKey settled more
      rw [scan_fail (extended.trans judged)]
  | case4 c r next size event judged ih =>
      have settled : c.judge config clientKey r ≠ .needMore := by simp [judged]
      have extended := Core.judge_append config clientKey settled more
      obtain ⟨-, bound⟩ := Core.judge_frame_size config clientKey judged
      rw [scan_frame (extended.trans judged), List.drop_append_of_le_length bound, ih]
      simp only [Scan.prepend]
      split <;> simp

/-! ## Paths follow the prescribed reading -/

theorem decode_conforms {fault : Fault} (lawful : fault.Lawful) (mode : Mode) (c : Core)
    (r : Bytes) :
    (decode config clientKey fault mode c r).Conforms (scan config clientKey c r) := by
  fun_induction scan config clientKey c r generalizing mode with
  | case1 c r judged =>
      obtain ⟨-, same⟩ | ⟨violated, -⟩ := c.step_of_judge config clientKey lawful mode r
      · rw [decode_needMore (same.trans judged)]
        exact ⟨rfl, rfl, rfl, rfl⟩
      · simp [judged] at violated
  | case2 c r judged =>
      obtain ⟨sound, -⟩ | ⟨-, waits | ⟨e, reason, reports⟩⟩ :=
        c.step_of_judge config clientKey lawful mode r
      · exact absurd judged sound
      · rw [decode_needMore waits.1]
        exact ⟨rfl, .inl ⟨rfl, rfl, rfl, waits.2⟩⟩
      · rw [decode_fail reports]
        exact ⟨rfl, .inr ⟨e, reason, rfl, rfl⟩⟩
  | case3 c r next error judged =>
      obtain ⟨-, same⟩ | ⟨violated, -⟩ := c.step_of_judge config clientKey lawful mode r
      · rw [decode_fail (same.trans judged)]
        exact ⟨rfl, rfl, rfl⟩
      · simp [judged] at violated
  | case4 c r next size event judged ih =>
      obtain ⟨-, same⟩ | ⟨violated, -⟩ := c.step_of_judge config clientKey lawful mode r
      · rw [decode_frame (same.trans judged)]
        exact (ih .idle).prepend ⟨event, _⟩
      · simp [judged] at violated

end Streams

end Talaris.Ws
