import Talaris.Ws.Calls

/-!
# What an accepted upgrade has agreed on

`verifyUpgradeResponse` looks for its tokens in every `Upgrade` and every `Connection`
line, but of `Sec-WebSocket-Accept` and `Sec-WebSocket-Protocol` it reads the first line
only (`FirstLinesFit`).  So the answers it accepts are legal unless one of these two
headers is repeated, or an offered subprotocol is itself a list
(`verifyUpgradeResponse_legal_iff`).
-/

namespace Talaris.Ws

open Talaris.Http

/-! ## Legal answers -/

/-- Some line of a header has the token in its list. -/
def Lists (response : Http1Response) (name token : Text) : Prop :=
  ∃ value ∈ response.headerValues name, ∃ piece ∈ Text.split ',' value,
    Text.eqIgnoreAsciiCase (Text.trim piece) token

/-- The client offered a subprotocol of this name, ASCII case aside. -/
def Offers (offered : List Text) (name : Text) : Prop :=
  ∃ subprotocol ∈ offered, Text.eqIgnoreAsciiCase subprotocol name

/-- The subprotocols that the lines of an answer name, all lines together. -/
def namedSubprotocols (response : Http1Response) : List Text :=
  (response.headerValues "Sec-WebSocket-Protocol".toList).flatMap fun value =>
    (Text.split ',' value).map Text.trim

section

variable [AcceptDigest]

/-- An answer that completes the upgrade within what was offered. -/
structure LegalUpgrade (response : Http1Response) (clientKey : Text) (offered : List Text) :
    Prop where
  status : response.status = 101
  upgrade : Lists response "Upgrade".toList "websocket".toList
  connection : Lists response "Connection".toList "Upgrade".toList
  answered : response.headerValues "Sec-WebSocket-Accept".toList ≠ []
  accept : ∀ value ∈ response.headerValues "Sec-WebSocket-Accept".toList,
    value = computeAccept clientKey
  extensions : response.headerValues "Sec-WebSocket-Extensions".toList = []
  atMostOne : (namedSubprotocols response).length ≤ 1
  offered : ∀ name ∈ namedSubprotocols response, Offers offered name

/-! ## What is checked -/

/-- The checks, with the first lines of two headers standing for all of them. -/
structure FirstLinesFit (response : Http1Response) (clientKey : Text) (offered : List Text) :
    Prop where
  status : response.status = 101
  upgrade : Lists response "Upgrade".toList "websocket".toList
  connection : Lists response "Connection".toList "Upgrade".toList
  accept : response.header "Sec-WebSocket-Accept".toList = some (computeAccept clientKey)
  extensions : response.header "Sec-WebSocket-Extensions".toList = none
  subprotocol : ∀ value ∈ response.header "Sec-WebSocket-Protocol".toList,
    Offers offered (Text.trim value)

/-- The lines behind the first ones say nothing else, and the line that names the subprotocol is
no list. -/
structure SpeaksOnce (response : Http1Response) : Prop where
  accept : ∀ value ∈ (response.headerValues "Sec-WebSocket-Accept".toList).tail,
    response.header "Sec-WebSocket-Accept".toList = some value
  protocol : (response.headerValues "Sec-WebSocket-Protocol".toList).tail = []
  noList : ∀ value ∈ response.header "Sec-WebSocket-Protocol".toList, ',' ∉ value

omit [AcceptDigest] in
theorem hasToken_iff {response : Http1Response} {name token : Text} :
    hasToken response name token = true ↔ Lists response name token := by
  simp only [hasToken, Lists, List.any_eq_true]

theorem verifyUpgradeResponse_ok_iff {response : Http1Response} {clientKey : Text}
    {offered : List Text} :
    verifyUpgradeResponse response clientKey offered = .ok () ↔
      FirstLinesFit response clientKey offered := by
  constructor
  · intro accepted
    simp only [verifyUpgradeResponse] at accepted
    split at accepted
    next => cases accepted
    next status =>
      split at accepted
      next => split at accepted <;> cases accepted
      next upgrade =>
        split at accepted
        next => split at accepted <;> cases accepted
        next connection =>
          split at accepted
          next => cases accepted
          next accept acceptLine =>
            split at accepted
            next => cases accepted
            next verified =>
              split at accepted
              next => cases accepted
              next extensions =>
                simp only [Bool.not_eq_true, Bool.not_eq_false'] at upgrade connection verified
                have computed : computeAccept clientKey = accept := eq_of_beq verified
                constructor
                case status => exact not_not.mp status
                case upgrade => exact hasToken_iff.mp upgrade
                case connection => exact hasToken_iff.mp connection
                case accept => rw [acceptLine, computed]
                case extensions => exact extensions
                case subprotocol =>
                  intro value line
                  rw [Option.mem_def] at line
                  rw [line] at accepted
                  simp only at accepted
                  split at accepted
                  next => cases accepted
                  next =>
                    split at accepted
                    next => cases accepted
                    next found => simpa [Offers] using found
  · intro fit
    have upgrade := hasToken_iff.mpr fit.upgrade
    have connection := hasToken_iff.mpr fit.connection
    have verified : verifyAccept clientKey (computeAccept clientKey) = true := beq_self_eq_true _
    simp only [verifyUpgradeResponse, fit.status, upgrade, connection, fit.accept, verified,
      fit.extensions, ne_eq, not_true_eq_false, Bool.not_true, Bool.false_eq_true, if_false]
    cases line : response.header "Sec-WebSocket-Protocol".toList with
    | none => rfl
    | some value =>
        obtain ⟨subprotocol, member, same⟩ := fit.subprotocol value line
        have some : offered.isEmpty = false := by
          cases offered with
          | nil => cases member
          | cons => rfl
        have found : (offered.any fun offered =>
            Text.eqIgnoreAsciiCase offered (Text.trim value)) = true :=
          List.any_eq_true.mpr ⟨subprotocol, member, same⟩
        simp only [some, found, Bool.not_true, Bool.false_eq_true, if_false]

/-! ## Lists in a line -/

omit [AcceptDigest] in
theorem split_length (value : Text) : (Text.split ',' value).length = value.count ',' + 1 := by
  induction value with
  | nil => rfl
  | cons c rest ih =>
      simp only [Text.split]
      split
      next comma =>
        rw [List.length_cons, ih, eq_of_beq comma, List.count_cons_self]
      next other =>
        have count : (c :: rest).count ',' = rest.count ',' :=
          List.count_cons_of_ne (fun same => other (beq_of_eq same.symm.symm))
        cases pieces : Text.split ',' rest with
        | nil => rw [pieces] at ih; cases ih
        | cons piece pieces' => rw [pieces] at ih; rw [count, ← ih]; rfl

omit [AcceptDigest] in
theorem split_noComma {value : Text} (noList : ',' ∉ value) : Text.split ',' value = [value] := by
  induction value with
  | nil => rfl
  | cons c rest ih =>
      rw [List.mem_cons, not_or] at noList
      have other : ¬ (c == ',') = true := fun same => noList.1 (eq_of_beq same).symm
      rw [Text.split, if_neg other, ih noList.2]

omit [AcceptDigest] in
/-- One name at most: one line at most, and no comma in it. -/
theorem namedSubprotocols_length_le_one {response : Http1Response} :
    (namedSubprotocols response).length ≤ 1 ↔
      (response.headerValues "Sec-WebSocket-Protocol".toList).tail = [] ∧
        ∀ value ∈ response.header "Sec-WebSocket-Protocol".toList, ',' ∉ value := by
  simp only [namedSubprotocols, Http1Response.header]
  cases response.headerValues "Sec-WebSocket-Protocol".toList with
  | nil => simp
  | cons value lines =>
      have first := split_length value
      have lines' (line : Text) : 1 ≤ ((Text.split ',' line).map Text.trim).length := by
        rw [List.length_map, split_length]
        omega
      simp only [List.flatMap_cons, List.length_append, List.length_map, first, List.tail_cons,
        List.head?_cons, Option.mem_def, Option.some.injEq, forall_eq']
      cases lines with
      | nil => simp [List.count_eq_zero]
      | cons line lines =>
          have := lines' line
          simp only [List.flatMap_cons, List.length_append, reduceCtorEq, false_and, iff_false]
          omega

/-! ## When an accepted answer is legal -/

/-- An accepted answer is legal exactly if one whose first lines fit says nothing else in further
`Sec-WebSocket-Accept` or `Sec-WebSocket-Protocol` lines, and names no list. -/
theorem verifyUpgradeResponse_legal_iff (response : Http1Response) (clientKey : Text)
    (offered : List Text) :
    (verifyUpgradeResponse response clientKey offered = .ok () →
        LegalUpgrade response clientKey offered) ↔
      (FirstLinesFit response clientKey offered → SpeaksOnce response) := by
  rw [verifyUpgradeResponse_ok_iff]
  refine forall_congr' fun fit => ?_
  constructor
  · intro legal
    obtain ⟨protocol, noList⟩ := namedSubprotocols_length_le_one.mp legal.atMostOne
    constructor
    case accept =>
      intro value member
      rw [fit.accept, legal.accept value (List.mem_of_mem_tail member)]
    case protocol => exact protocol
    case noList => exact noList
  · intro once
    have acceptLines : ∀ value ∈ response.headerValues "Sec-WebSocket-Accept".toList,
        value = computeAccept clientKey := by
      intro value member
      have first := fit.accept
      have later := once.accept
      rw [Http1Response.header] at first later
      cases lines : response.headerValues "Sec-WebSocket-Accept".toList with
      | nil => rw [lines] at member; cases member
      | cons line rest =>
          rw [lines] at member first later
          obtain rfl : line = computeAccept clientKey := Option.some.inj first
          cases member with
          | head => rfl
          | tail _ member => exact (Option.some.inj (later value member)).symm
    constructor
    case status => exact fit.status
    case upgrade => exact fit.upgrade
    case connection => exact fit.connection
    case answered =>
      intro none
      have first := fit.accept
      rw [Http1Response.header, none] at first
      cases first
    case accept => exact acceptLines
    case extensions => exact List.head?_eq_none_iff.mp fit.extensions
    case atMostOne => exact namedSubprotocols_length_le_one.mpr ⟨once.protocol, once.noList⟩
    case offered =>
      intro name named
      obtain ⟨value, member, piece⟩ := List.mem_flatMap.mp named
      have line : response.header "Sec-WebSocket-Protocol".toList = some value := by
        have alone := once.protocol
        rw [Http1Response.header]
        cases lines : response.headerValues "Sec-WebSocket-Protocol".toList with
        | nil => rw [lines] at member; cases member
        | cons first rest =>
            rw [lines] at member alone
            obtain rfl : rest = [] := alone
            rw [List.mem_singleton.mp member]
            rfl
      rw [split_noComma (once.noList value line), List.map_singleton, List.mem_singleton] at piece
      rw [piece]
      exact fit.subprotocol value line

end

attribute [local instance] Sample.digest

/-- An answer with two subprotocols, of which the client has offered the first. -/
def twoSubprotocols : Http1Response where
  version := "HTTP/1.1".toList
  status := 101
  reason := "Switching Protocols".toList
  headers :=
    [("Upgrade".toList, "websocket".toList), ("Connection".toList, "Upgrade".toList),
      ("Sec-WebSocket-Accept".toList, Sample.accept), ("Sec-WebSocket-Protocol".toList, "chat".toList),
      ("Sec-WebSocket-Protocol".toList, "echo".toList)]
  headerEnd := 0

theorem twoSubprotocols_accepted :
    verifyUpgradeResponse twoSubprotocols Sample.key ["chat".toList] = .ok () ∧
      ¬ LegalUpgrade twoSubprotocols Sample.key ["chat".toList] := by
  constructor
  · decide
  · intro legal
    exact absurd legal.atMostOne (by decide)

end Talaris.Ws
