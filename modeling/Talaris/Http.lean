import Talaris.Text

/-!
# The HTTP/1.1 codec of the upgrade

`encodeRequest` writes the request; `parseResponse` reads status line and headers
of the answer out of a buffer that may still be growing.  The reader looks for
the blank line inside the first `maxResponseHeaderBytes` only, which is what makes
its verdict stable under more input (`parseResponse_append`).
-/

namespace Talaris.Http

def maxResponseHeaderBytes : Nat := 16 * 1024

def maxResponseHeaderCount : Nat := 64

inductive HttpError where
  | badStatusLine
  | unsupportedVersion
  | badHeader
  | notUtf8
  | headersTooLarge (limit : Nat)
  | tooManyHeaders (limit : Nat)
  | unsupportedTransferEncoding
  deriving DecidableEq, Repr

/-- Parsed view of a response. -/
structure Http1Response where
  version : Text
  status : Nat
  reason : Text
  headers : List (Text × Text)
  headerEnd : Nat
  deriving DecidableEq, Repr

namespace Http1Response

/-- All values of a header, in order, the name compared without ASCII case. -/
def headerValues (response : Http1Response) (name : Text) : List Text :=
  (response.headers.filter fun header => Text.eqIgnoreAsciiCase header.1 name).map Prod.snd

/-- The first value of a header. -/
def header (response : Http1Response) (name : Text) : Option Text :=
  (response.headerValues name).head?

end Http1Response

/-- Request line, `Host`, the given headers and the blank line. -/
def encodeRequest (method path host : Text) (headers : List (Text × Text)) : Bytes :=
  Text.utf8 (method ++ " ".toList ++ path ++ " HTTP/1.1\r\n".toList ++
    "Host: ".toList ++ host ++ "\r\n".toList ++
    headers.flatMap (fun header =>
      header.1 ++ ": ".toList ++ header.2 ++ "\r\n".toList) ++
    "\r\n".toList)

/-- Position of the first `\r\n\r\n`. -/
def findDoubleCrlf : Bytes → Option Nat
  | [] => none
  | b :: rest =>
      if (b :: rest).take 4 == [13, 10, 13, 10] then some 0
      else (findDoubleCrlf rest).map (· + 1)

/-- `line.splitn(3, ' ')` and the checks on its pieces. -/
def parseStatusLine (line : Text) : Except HttpError (Text × Nat × Text) :=
  let (version, afterVersion) :=
    match Text.splitOnce ' ' line with
    | some (head, tail) => (head, some tail)
    | none => (line, none)
  if version != "HTTP/1.1".toList then .error .unsupportedVersion
  else
    match afterVersion with
    | none => .error .badStatusLine
    | some tail =>
        let (codeStr, reason) :=
          match Text.splitOnce ' ' tail with
          | some (head, tail) => (head, tail)
          | none => (tail, [])
        match Text.parseU16 codeStr with
        | none => .error .badStatusLine
        | some code => .ok (version, code, reason)

/-- One header line. -/
def parseHeaderLine (line : Text) : Except HttpError (Text × Text) :=
  match Text.splitOnce ':' line with
  | none => .error .badHeader
  | some (name, value) =>
      if name.isEmpty || name.any (fun c => c == ' ' || c == '\t') then .error .badHeader
      else
        let value := Text.trim value
        if Text.eqIgnoreAsciiCase name "Transfer-Encoding".toList &&
            !Text.eqIgnoreAsciiCase value "identity".toList then
          .error .unsupportedTransferEncoding
        else .ok (name, value)

/-- The header loop: stops at an empty line, counts before it parses. -/
def parseHeaders (headers : List (Text × Text)) :
    List Text → Except HttpError (List (Text × Text))
  | [] => .ok headers
  | line :: lines =>
      if line.isEmpty then .ok headers
      else if maxResponseHeaderCount ≤ headers.length then
        .error (.tooManyHeaders maxResponseHeaderCount)
      else
        match parseHeaderLine line with
        | .error e => .error e
        | .ok header => parseHeaders (headers ++ [header]) lines

/-- Everything before the blank line, once it is there. -/
def parseHead (head : Bytes) (bodyStart : Nat) : Except HttpError Http1Response :=
  match Utf8.fromUtf8 head with
  | none => .error .notUtf8
  | some text =>
      match Text.splitCrlf text with
      | [] => .error .badStatusLine
      | statusLine :: lines =>
          match parseStatusLine statusLine with
          | .error e => .error e
          | .ok (version, status, reason) =>
              match parseHeaders [] lines with
              | .error e => .error e
              | .ok headers => .ok ⟨version, status, reason, headers, bodyStart⟩

/-- `none` asks for more input. -/
def parseResponse (input : Bytes) : Except HttpError (Option (Http1Response × Nat)) :=
  match findDoubleCrlf (input.take maxResponseHeaderBytes) with
  | none =>
      if maxResponseHeaderBytes < input.length then
        .error (.headersTooLarge maxResponseHeaderBytes)
      else .ok none
  | some headerEnd =>
      match parseHead (input.take headerEnd) (headerEnd + 4) with
      | .error e => .error e
      | .ok response => .ok (some (response, headerEnd + 4))

/-! ## Stability under more input -/

theorem findDoubleCrlf_bound {input : Bytes} {position : Nat}
    (found : findDoubleCrlf input = some position) : position + 4 ≤ input.length := by
  induction input generalizing position with
  | nil => simp [findDoubleCrlf] at found
  | cons b rest ih =>
      simp only [findDoubleCrlf] at found
      split at found
      next here =>
        have length := congrArg List.length (eq_of_beq here)
        simp only [List.length_take, List.length_cons, List.length_nil] at length
        simp only [Option.some.injEq] at found
        simp only [List.length_cons]
        omega
      next =>
        cases tail : findDoubleCrlf rest with
        | none => simp [tail] at found
        | some before =>
            simp only [tail, Option.map_some, Option.some.injEq] at found
            have := ih tail
            simp only [List.length_cons]
            omega

theorem findDoubleCrlf_append {input : Bytes} {position : Nat}
    (found : findDoubleCrlf input = some position) (more : Bytes) :
    findDoubleCrlf (input ++ more) = some position := by
  induction input generalizing position with
  | nil => simp [findDoubleCrlf] at found
  | cons b rest ih =>
      have bound := findDoubleCrlf_bound found
      simp only [List.cons_append, findDoubleCrlf] at found ⊢
      split at found
      next here =>
        have length := congrArg List.length (eq_of_beq here)
        simp only [List.length_take, List.length_cons, List.length_nil] at length
        have long : 4 ≤ (b :: rest).length := by simp only [List.length_cons]; omega
        rw [← List.cons_append, List.take_append_of_le_length long, if_pos here]
        exact found
      next missing =>
        cases tail : findDoubleCrlf rest with
        | none => simp [tail] at found
        | some before =>
            have tailBound := findDoubleCrlf_bound tail
            have long : 4 ≤ (b :: rest).length := by simp only [List.length_cons]; omega
            rw [← List.cons_append, List.take_append_of_le_length long, if_neg missing,
              ih tail]
            simpa [tail] using found

/-- A response that was complete or refused is the same verdict on every
extension. -/
theorem parseResponse_append {input : Bytes} (settled : parseResponse input ≠ .ok none)
    (more : Bytes) : parseResponse (input ++ more) = parseResponse input := by
  simp only [parseResponse] at settled ⊢
  cases found : findDoubleCrlf (input.take maxResponseHeaderBytes) with
  | none =>
      simp only [found] at settled
      split at settled
      next long =>
        have window : (input ++ more).take maxResponseHeaderBytes =
            input.take maxResponseHeaderBytes :=
          List.take_append_of_le_length (Nat.le_of_lt long)
        have longer : maxResponseHeaderBytes < (input ++ more).length := by
          simp only [List.length_append]
          omega
        simp only [window, found, if_pos longer, if_pos long]
      next => exact absurd rfl settled
  | some headerEnd =>
      have bound := findDoubleCrlf_bound found
      have window : findDoubleCrlf ((input ++ more).take maxResponseHeaderBytes) =
          some headerEnd := by
        rw [List.take_append]
        exact findDoubleCrlf_append found _
      have headLen : headerEnd ≤ input.length := by
        simp only [List.length_take] at bound
        omega
      simp only [window, List.take_append_of_le_length headLen]

/-- A complete response ends inside the input and is not empty. -/
theorem parseResponse_bounds {input : Bytes} {response : Http1Response} {bodyStart : Nat}
    (parsed : parseResponse input = .ok (some (response, bodyStart))) :
    4 ≤ bodyStart ∧ bodyStart ≤ input.length := by
  simp only [parseResponse] at parsed
  cases found : findDoubleCrlf (input.take maxResponseHeaderBytes) with
  | none =>
      simp only [found] at parsed
      split at parsed <;> cases parsed
  | some headerEnd =>
      have bound := findDoubleCrlf_bound found
      simp only [List.length_take] at bound
      rw [found] at parsed
      simp only at parsed
      split at parsed
      next => simp at parsed
      next =>
        simp only [Except.ok.injEq, Option.some.injEq, Prod.mk.injEq] at parsed
        omega

end Talaris.Http
