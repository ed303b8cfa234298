import InfraFromScratch.Http.Requests

/-!
# Writing a response, and reading it in the client

`build_response` in `http-server/server.py` joins lines of text and appends the body;
`_read_response` in `http-server/client.py` reads lines from a file and takes what is left as
the body. The file is the list of bytes that is still unread.

Whatever the body contains, the client reads back what the server wrote
(`readResponse_buildResponse`).
-/

set_option autoImplicit false

namespace InfraFromScratch.Http

open Foundations

/-! ## The server's side -/

namespace Server

/-- The lines that `build_response` joins. -/
def responseLines (status : Text) (length : Nat) (headers : List (Text × Text)) : List Text :=
  ["HTTP/1.1 ".toList ++ status] ++
    headers.map (fun header => header.1 ++ ": ".toList ++ header.2) ++
    ["Content-Length: ".toList ++ length.repr.toList, "Connection: close".toList, [], []]

/-- `build_response`, or nothing where the head is not ASCII and encoding it raises a
`ValueError`. -/
def buildResponse (status : Text) (body : Bytes) (headers : List (Text × Text)) : Option Bytes :=
  (encodeAscii ("\r\n".toList.intercalate (responseLines status body.length headers))).map (· ++ body)

end Server

/-! ## The client's side -/

namespace Client

/-- `Response`. -/
structure Response where
  version : Text
  status : Nat
  reason : Text
  headers : Headers
  body : Bytes
  deriving DecidableEq, Repr

/-- What `_read_response` raises. -/
inductive ResponseError where
  | valueError (text : String)
  | notImplementedError (text : String)
  deriving DecidableEq, Repr

/-- `response_file.readline()`: the line with its newline, and the rest. -/
def readLine (stream : Bytes) : Bytes × Bytes :=
  match cutAt lf stream with
  | some (line, rest) => (line ++ [lf], rest)
  | none => (stream, [])

/-- `_decode_line`. -/
def decodeLine (line : Bytes) : Except ResponseError Text :=
  if [cr, lf] <:+ line then .ok (decodeLatin1 (line.take (line.length - 2)))
  else .error (.valueError "incomplete response line")

/-- `int` of a text of digits. -/
def digitsValue (digits : Text) : Nat :=
  digits.foldl (fun total digit => total * 10 + (digit.toNat - 48)) 0

/-- The part of `_read_response` about the status line. -/
def parseStatusLine (line : Text) : Except ResponseError (Text × Nat × Text) :=
  match cutAt ' ' line with
  | none => .error (.valueError "malformed response status line")
  | some (version, rest) =>
      match cutAt ' ' rest with
      | none => .error (.valueError "malformed response status line")
      | some (rawStatus, reason) =>
          if version ∉ supportedVersions ∨ rawStatus.length ≠ 3 ∨ ¬ isAscii rawStatus ∨
              ¬ rawStatus.all Char.isDigit then
            .error (.valueError "malformed response status line")
          else if reason.any isControl then
            .error (.valueError "malformed response reason phrase")
          else .ok (version, digitsValue rawStatus, reason)

/-- `headers[name] = value`. -/
def setItem (headers : Headers) (name value : Text) : Headers :=
  if name ∈ headers.names then
    headers.map fun item => if item.1 = name then (name, value) else item
  else headers ++ [(name, value)]

/-- What the loop of `_read_response` does with a header line. -/
def parseHeaderLine (headers : Headers) (line : Text) : Except ResponseError Headers :=
  match cutAt ':' line with
  | none => .error (.valueError "malformed response header")
  | some (name, value) =>
      if ¬ isToken (casefold name) then .error (.valueError "malformed response header name")
      else if value.any isControl then .error (.valueError "malformed response header value")
      else .ok (setItem headers (casefold name) (stripBlanks value))

theorem readLine_length_lt {stream : Bytes} (more : (readLine stream).1 ≠ []) :
    (readLine stream).2.length < stream.length := by
  unfold readLine at more ⊢
  cases found : cutAt lf stream with
  | none =>
      simp only [found] at more ⊢
      exact List.length_pos_of_ne_nil more
  | some parts => exact cutAt_length_lt found

/-- The loop of `_read_response`: the headers, and the unread rest. -/
def readHeaders (headers : Headers) (stream : Bytes) : Except ResponseError (Headers × Bytes) :=
  if _more : (readLine stream).1 = [] then .error (.valueError "incomplete response headers")
  else if (readLine stream).1 = [cr, lf] then .ok (headers, (readLine stream).2)
  else
    match decodeLine (readLine stream).1 with
    | .error error => .error error
    | .ok line =>
        match parseHeaderLine headers line with
        | .error error => .error error
        | .ok next => readHeaders next (readLine stream).2
termination_by stream.length
decreasing_by exact readLine_length_lt _more

/-- `_read_response`. -/
def readResponse (stream : Bytes) : Except ResponseError Response :=
  if (readLine stream).1 = [] then .error (.valueError "empty HTTP response")
  else do
    let line ← decodeLine (readLine stream).1
    let (version, status, reason) ← parseStatusLine line
    let (headers, body) ← readHeaders [] (readLine stream).2
    if "transfer-encoding".toList ∈ headers.names then
      throw (.notImplementedError "Transfer-Encoding responses are not supported")
    if "content-encoding".toList ∈ headers.names then
      throw (.notImplementedError "Content-Encoding responses are not supported")
    return { version, status, reason, headers, body }

/-! ## Lines -/

/-- A line without a newline of its own is read through its end. -/
theorem readLine_line {line : Bytes} (clean : lf ∉ line) (rest : Bytes) :
    readLine (line ++ [cr, lf] ++ rest) = (line ++ [cr, lf], rest) := by
  have split : line ++ [cr, lf] ++ rest = (line ++ [cr]) ++ lf :: rest := by simp
  have cleanLine : lf ∉ line ++ [cr] := by
    rw [List.mem_append, not_or]
    exact ⟨clean, by decide⟩
  rw [readLine, split, cutAt_append cleanLine]
  simp

theorem decodeLine_line (line : Bytes) :
    decodeLine (line ++ [cr, lf]) = .ok (decodeLatin1 line) := by
  have size : (line ++ [cr, lf]).length - 2 = line.length := by simp
  rw [decodeLine, if_pos ⟨line, rfl⟩, size, List.take_left]

/-- A text of one line: ASCII without a newline. -/
def Plain (text : Text) : Prop := ∀ character ∈ text, character.toNat < 128 ∧ character ≠ '\n'

instance (text : Text) : Decidable (Plain text) :=
  List.decidableBAll (fun character : Char => character.toNat < 128 ∧ character ≠ '\n') text

theorem Plain.small {text : Text} (plain : Plain text) :
    ∀ character ∈ text, character.toNat < 128 :=
  fun character member => (plain character member).1

theorem Plain.append {text other : Text} (plain : Plain text) (otherPlain : Plain other) :
    Plain (text ++ other) := by
  intro character member
  rcases List.mem_append.mp member with inFirst | inSecond
  · exact plain character inFirst
  · exact otherPlain character inSecond

theorem Plain.lf_notMem {text : Text} (plain : Plain text) : lf ∉ asciiBytes text := by
  intro member
  obtain ⟨character, inside, same⟩ := List.mem_map.mp member
  obtain ⟨small, noNewline⟩ := plain character inside
  refine noNewline ?_
  exact forall_ascii (fun character => UInt8.ofNat character.toNat = lf → character = '\n')
    (by decide +kernel) small same

/-- The bytes of a line and its end. -/
def lineBytes (text : Text) : Bytes := asciiBytes text ++ [cr, lf]

theorem readLine_lineBytes {text : Text} (plain : Plain text) (rest : Bytes) :
    readLine (lineBytes text ++ rest) = (lineBytes text, rest) :=
  readLine_line plain.lf_notMem rest

theorem decodeLine_lineBytes {text : Text} (plain : Plain text) :
    decodeLine (lineBytes text) = .ok text := by
  rw [lineBytes, decodeLine_line, decodeLatin1_asciiBytes plain.small]

theorem lineBytes_ne_nil (text : Text) : lineBytes text ≠ [] := by
  simp [lineBytes]

theorem lineBytes_ne_end {text : Text} (nonempty : text ≠ []) : lineBytes text ≠ [cr, lf] := by
  intro same
  have lengths := congrArg List.length same
  simp only [lineBytes, asciiBytes, List.length_append, List.length_map, List.length_cons,
    List.length_nil] at lengths
  have positive := List.length_pos_of_ne_nil nonempty
  omega

/-- Lines with an empty one and nothing after them, joined. -/
theorem intercalate_ends (separator : Text) (lines : List Text) :
    separator.intercalate (lines ++ [[], []]) =
      (lines.map (· ++ separator)).flatten ++ separator := by
  induction lines with
  | nil => simp [List.intercalate]
  | cons line lines ih =>
      rw [List.cons_append, List.intercalate_cons_of_ne_nil (by simp), ih, List.map_cons,
        List.flatten_cons]
      simp only [List.append_assoc]

/-- The bytes of such lines. -/
theorem asciiBytes_intercalate (lines : List Text) :
    asciiBytes ("\r\n".toList.intercalate (lines ++ [[], []])) =
      (lines.map lineBytes).flatten ++ [cr, lf] := by
  have ends : asciiBytes "\r\n".toList = [cr, lf] := rfl
  rw [intercalate_ends, asciiBytes, List.map_append, List.map_flatten, List.map_map]
  congr 2
  apply List.map_congr_left
  intro line _
  rw [Function.comp_apply, List.map_append]
  exact congrArg (asciiBytes line ++ ·) ends

/-! ## Header fields -/

/-- A header that `build_response` can be given: its name is a token, and its value is ASCII
without control characters, other than tabs. -/
structure Field (header : Text × Text) : Prop where
  name : isToken header.1 = true
  value : ∀ character ∈ header.2, character.toNat < 128 ∧ isControl character = false

/-- Lower case. -/
def lower (text : Text) : Text := text.map Char.toLower

/-- The line of a header. -/
def fieldLine (header : Text × Text) : Text := header.1 ++ ": ".toList ++ header.2

theorem token_char {name : Text} (token : isToken name = true) {character : Char}
    (member : character ∈ name) : character.toNat < 128 ∧ isTokenChar character = true := by
  simp only [isToken, isAscii, Bool.and_eq_true, List.all_eq_true, decide_eq_true_eq] at token
  exact ⟨token.1.2 character member, token.2 character member⟩

theorem casefold_of_token {name : Text} (token : isToken name = true) :
    casefold name = lower name :=
  casefold_of_small fun _ member => (token_char token member).1

/-- A token in lower case is a token. -/
theorem isToken_lower {name : Text} (token : isToken name = true) : isToken (lower name) = true := by
  have each : ∀ character ∈ name,
      character.toLower.toNat < 128 ∧ isTokenChar character.toLower = true := by
    intro character member
    obtain ⟨small, symbol⟩ := token_char token member
    exact forall_ascii (fun character => isTokenChar character = true →
      character.toLower.toNat < 128 ∧ isTokenChar character.toLower = true)
      (by decide +kernel) small symbol
  have nonempty : name ≠ [] := by
    rintro rfl
    cases token
  simp only [isToken, isAscii, lower, Bool.and_eq_true, decide_eq_true_eq, List.all_eq_true,
    List.mem_map, forall_exists_index, and_imp, forall_apply_eq_imp_iff₂, ne_eq, List.map_eq_nil_iff]
  exact ⟨⟨nonempty, fun character member => (each character member).1⟩,
    fun character member => (each character member).2⟩

theorem plain_of_token {name : Text} (token : isToken name = true) : Plain name := by
  intro character member
  obtain ⟨small, symbol⟩ := token_char token member
  refine ⟨small, ?_⟩
  rintro rfl
  revert symbol
  decide

/-- Text without control characters has no newline. -/
theorem plain_of_uncontrolled {text : Text}
    (free : ∀ character ∈ text, character.toNat < 128 ∧ isControl character = false) :
    Plain text := by
  intro character member
  obtain ⟨small, noControl⟩ := free character member
  refine ⟨small, ?_⟩
  rintro rfl
  revert noControl
  decide

theorem Field.plain {header : Text × Text} (field : Field header) : Plain (fieldLine header) :=
  ((plain_of_token field.name).append (by decide)).append (plain_of_uncontrolled field.value)

/-- The first colon of the line of a header ends its name. -/
theorem Field.cut {header : Text × Text} (field : Field header) :
    cutAt ':' (fieldLine header) = some (header.1, ' ' :: header.2) := by
  have clean : ':' ∉ header.1 := by
    intro member
    have symbol := (token_char field.name member).2
    revert symbol
    decide
  rw [fieldLine, List.append_assoc]
  exact cutAt_append clean _

theorem parseHeaderLine_field {header : Text × Text} (field : Field header) (headers : Headers) :
    parseHeaderLine headers (fieldLine header) =
      .ok (setItem headers (lower header.1) (stripBlanks header.2)) := by
  have free : (' ' :: header.2).any isControl = false := by
    rw [List.any_cons, Bool.or_eq_false_iff]
    refine ⟨by decide, ?_⟩
    rw [List.any_eq_false]
    intro character member
    rw [(field.value character member).2]
    decide
  simp only [parseHeaderLine, field.cut, casefold_of_token field.name, isToken_lower field.name,
    not_true_eq_false, if_false, free, Bool.false_eq_true, stripBlanks_cons_space]

/-- What the client's `dict` holds after some headers. -/
def setItems (headers : Headers) (fields : List (Text × Text)) : Headers :=
  fields.foldl (fun items header => setItem items (lower header.1) (stripBlanks header.2)) headers

/-- The loop ends at the empty line. -/
theorem readHeaders_end (headers : Headers) (body : Bytes) :
    readHeaders headers ([cr, lf] ++ body) = .ok (headers, body) := by
  have line : readLine ([cr, lf] ++ body) = ([cr, lf], body) :=
    @readLine_lineBytes [] (by decide) body
  rw [readHeaders, line]
  rfl

/-- The loop goes on after a line that is accepted. -/
theorem readHeaders_line {text : Text} (plain : Plain text) (nonempty : text ≠ [])
    {headers next : Headers} (parsed : parseHeaderLine headers text = .ok next) (rest : Bytes) :
    readHeaders headers (lineBytes text ++ rest) = readHeaders next rest := by
  rw [readHeaders, readLine_lineBytes plain, dif_neg (lineBytes_ne_nil text),
    if_neg (lineBytes_ne_end nonempty), decodeLine_lineBytes plain]
  simp only [parsed]

/-- The loop reads the lines of the headers, whatever follows the empty line. -/
theorem readHeaders_fields {fields : List (Text × Text)}
    (isField : ∀ header ∈ fields, Field header) (headers : Headers) (body : Bytes) :
    readHeaders headers (((fields.map fieldLine).map lineBytes).flatten ++ ([cr, lf] ++ body)) =
      .ok (setItems headers fields, body) := by
  induction fields generalizing headers with
  | nil => exact readHeaders_end headers body
  | cons header rest ih =>
      have field := isField header List.mem_cons_self
      have nonempty : fieldLine header ≠ [] := by simp [fieldLine]
      rw [List.map_cons, List.map_cons, List.flatten_cons, List.append_assoc,
        readHeaders_line field.plain nonempty (parseHeaderLine_field field headers),
        ih fun other member => isField other (List.mem_cons_of_mem _ member)]
      rfl

/-! ## The `dict` of headers -/

theorem mem_names_iff (headers : Headers) (name : Text) :
    name ∈ headers.names ↔ (headers.lookup name).isSome = true := by
  rw [List.lookup_isSome_iff]
  simp [Headers.names]

/-- Replacing the value of a key keeps the other keys. -/
theorem lookup_replace_of_ne {name wanted : Text} (other : wanted ≠ name) (value : Text)
    (headers : Headers) :
    (headers.map fun item => if item.1 = name then (name, value) else item).lookup wanted =
      headers.lookup wanted := by
  induction headers with
  | nil => rfl
  | cons item rest ih =>
      obtain ⟨key, old⟩ := item
      rw [List.map_cons]
      by_cases here : key = name
      · subst here
        simp only [if_true, List.lookup_cons, beq_eq_false_iff_ne.mpr other, ih]
      · simp only [if_neg here, List.lookup_cons, ih]

theorem lookup_replace_self {headers : Headers} {name : Text} (present : name ∈ headers.names)
    (value : Text) :
    (headers.map fun item => if item.1 = name then (name, value) else item).lookup name =
      some value := by
  induction headers with
  | nil => cases present
  | cons item rest ih =>
      obtain ⟨key, old⟩ := item
      rw [List.map_cons]
      by_cases here : key = name
      · simp [here]
      · have later := (List.mem_cons.mp present).resolve_left (Ne.symm here)
        simp only [if_neg here, List.lookup_cons, beq_eq_false_iff_ne.mpr (Ne.symm here)]
        exact ih later

theorem lookup_setItem (headers : Headers) (name value wanted : Text) :
    (setItem headers name value).lookup wanted =
      if wanted = name then some value else headers.lookup wanted := by
  unfold setItem
  split
  · rename_i present
    by_cases same : wanted = name
    · rw [if_pos same, same, lookup_replace_self present]
    · rw [if_neg same, lookup_replace_of_ne same]
  · rename_i absent
    rw [mem_names_iff, Bool.not_eq_true, Option.isSome_eq_false_iff, Option.isNone_iff_eq_none] at absent
    rw [List.lookup_append]
    by_cases same : wanted = name
    · subst same
      simp [absent]
    · simp [same, List.lookup_cons, beq_eq_false_iff_ne.mpr same]

/-- The last value given under a name. -/
def lastValue (fields : List (Text × Text)) (name : Text) : Option Text :=
  (fields.reverse.find? fun header => lower header.1 = name).map fun header => stripBlanks header.2

theorem lastValue_append (fields : List (Text × Text)) (header : Text × Text) (name : Text) :
    lastValue (fields ++ [header]) name =
      if name = lower header.1 then some (stripBlanks header.2) else lastValue fields name := by
  rw [lastValue, List.reverse_append, List.reverse_singleton, List.singleton_append,
    List.find?_cons]
  by_cases here : name = lower header.1
  · simp [here]
  · simp [here, Ne.symm here, lastValue]

theorem lookup_setItems (headers : Headers) (fields : List (Text × Text)) (wanted : Text) :
    (setItems headers fields).lookup wanted =
      (lastValue fields wanted).or (headers.lookup wanted) := by
  induction fields using List.reverseRecOn with
  | nil => rfl
  | append_singleton fields header ih =>
      have last : setItems headers (fields ++ [header]) =
          setItem (setItems headers fields) (lower header.1) (stripBlanks header.2) := by
        rw [setItems, List.foldl_append]
        rfl
      rw [last, lookup_setItem, ih, lastValue_append]
      split <;> rfl

/-! ## The round trip -/

/-- The headers that `build_response` adds. -/
def framing (length : Nat) : List (Text × Text) :=
  [("Content-Length".toList, length.repr.toList), ("Connection".toList, "close".toList)]

theorem isDigit_facts {character : Char} (digit : character.isDigit = true) :
    character.toNat < 128 ∧ isControl character = false ∧ isBlank character = false ∧
      character ≠ ' ' := by
  have small : character.toNat < 128 := by
    simp only [Char.isDigit, Bool.and_eq_true, decide_eq_true_eq, ge_iff_le] at digit
    have upper : character.toNat ≤ 57 := digit.2
    omega
  refine ⟨small, ?_⟩
  exact forall_ascii (fun character => character.isDigit = true →
    isControl character = false ∧ isBlank character = false ∧ character ≠ ' ')
    (by decide +kernel) small digit

theorem isDigit_of_mem_repr {number : Nat} {character : Char}
    (member : character ∈ number.repr.toList) : character.isDigit = true := by
  rw [Nat.toList_repr] at member
  exact Nat.isDigit_of_mem_toDigits (by omega) (by omega) member

theorem framing_fields (length : Nat) : ∀ header ∈ framing length, Field header := by
  have digits : ∀ character ∈ length.repr.toList,
      character.toNat < 128 ∧ isControl character = false := by
    intro character member
    have facts := isDigit_facts (isDigit_of_mem_repr member)
    exact ⟨facts.1, facts.2.1⟩
  intro header member
  simp only [framing, List.mem_cons, List.not_mem_nil, or_false] at member
  rcases member with rfl | rfl
  · refine ⟨?_, digits⟩
    show isToken "Content-Length".toList = true
    decide
  · exact ⟨by decide, List.all_iff_forall_prop.mp (by decide)⟩

theorem responseLines_eq (status : Text) (length : Nat) (headers : List (Text × Text)) :
    Server.responseLines status length headers =
      (("HTTP/1.1 ".toList ++ status) :: (headers ++ framing length).map fieldLine) ++ [[], []] := by
  simp [Server.responseLines, framing, fieldLine]

/-- Plain lines make an ASCII text. -/
theorem isAscii_intercalate {lines : List Text} (plain : ∀ line ∈ lines, Plain line) :
    isAscii ("\r\n".toList.intercalate (lines ++ [[], []])) = true := by
  rw [intercalate_ends, isAscii, List.all_append, Bool.and_eq_true]
  refine ⟨?_, by decide⟩
  rw [List.all_eq_true]
  intro character member
  obtain ⟨line, isLine, inside⟩ := List.mem_flatten.mp member
  obtain ⟨text, isText, rfl⟩ := List.mem_map.mp isLine
  rw [decide_eq_true_eq]
  rcases List.mem_append.mp inside with inText | inEnd
  · exact (plain text isText).small character inText
  · have ends : ∀ character ∈ "\r\n".toList, character.toNat < 128 :=
      List.all_iff_forall_prop.mp (by decide)
    exact ends character inEnd

/-- The head of a response is written line by line. -/
theorem buildResponse_eq {status : Text} {headers : List (Text × Text)}
    (plainStatus : Plain status) (fields : ∀ header ∈ headers, Field header) (body : Bytes) :
    Server.buildResponse status body headers =
      some (lineBytes ("HTTP/1.1 ".toList ++ status) ++
        ((((headers ++ framing body.length).map fieldLine).map lineBytes).flatten ++
          ([cr, lf] ++ body))) := by
  have plainLines : ∀ line ∈ ("HTTP/1.1 ".toList ++ status) ::
      (headers ++ framing body.length).map fieldLine, Plain line := by
    intro line member
    rcases List.mem_cons.mp member with rfl | member
    · exact Plain.append (by decide) plainStatus
    · obtain ⟨header, isHeader, rfl⟩ := List.mem_map.mp member
      rcases List.mem_append.mp isHeader with given | added
      · exact (fields header given).plain
      · exact (framing_fields _ header added).plain
  have isAsciiHead : isAscii ("\r\n".toList.intercalate
      (Server.responseLines status body.length headers)) = true := by
    rw [responseLines_eq]
    exact isAscii_intercalate plainLines
  rw [Server.buildResponse, encodeAscii, if_pos isAsciiHead, Option.map_some, responseLines_eq,
    asciiBytes_intercalate, List.map_cons, List.flatten_cons]
  simp only [List.append_assoc]

theorem uncontrolled_of_printable {character : Char}
    (printable : 32 ≤ character.toNat ∧ character.toNat ≤ 126) :
    character.toNat < 128 ∧ isControl character = false := by
  refine ⟨by omega, ?_⟩
  simp only [isControl, Bool.or_eq_false_iff, Bool.and_eq_false_iff, decide_eq_false_iff_not]
  exact ⟨.inl (by omega), by omega⟩

/-- A status line of three digits and a reason. -/
theorem parseStatusLine_of_status {first second third : Char} {reason : Text}
    (digits : first.isDigit ∧ second.isDigit ∧ third.isDigit)
    (printable : ∀ character ∈ reason, 32 ≤ character.toNat ∧ character.toNat ≤ 126) :
    parseStatusLine ("HTTP/1.1 ".toList ++ ([first, second, third] ++ ' ' :: reason)) =
      .ok ("HTTP/1.1".toList,
        100 * (first.toNat - 48) + 10 * (second.toNat - 48) + (third.toNat - 48), reason) := by
  obtain ⟨digit1, digit2, digit3⟩ := digits
  have fact1 := isDigit_facts digit1
  have fact2 := isDigit_facts digit2
  have fact3 := isDigit_facts digit3
  have version : cutAt ' ' ("HTTP/1.1 ".toList ++ ([first, second, third] ++ ' ' :: reason)) =
      some ("HTTP/1.1".toList, [first, second, third] ++ ' ' :: reason) :=
    @cutAt_append _ _ ' ' "HTTP/1.1".toList (by decide) _
  have number : cutAt ' ' ([first, second, third] ++ ' ' :: reason) =
      some ([first, second, third], reason) := by
    apply cutAt_append
    simp [Ne.symm fact1.2.2.2, Ne.symm fact2.2.2.2, Ne.symm fact3.2.2.2]
  have wellFormed : ¬ ("HTTP/1.1".toList ∉ supportedVersions ∨ [first, second, third].length ≠ 3 ∨
      ¬ isAscii [first, second, third] ∨ ¬ [first, second, third].all Char.isDigit) := by
    rw [not_or]
    refine ⟨not_not.mpr (by decide), ?_⟩
    simp [isAscii, fact1.1, fact2.1, fact3.1, digit1, digit2, digit3]
  have free : ¬ reason.any isControl = true := by
    rw [Bool.not_eq_true, List.any_eq_false]
    intro character member
    rw [(uncontrolled_of_printable (printable character member)).2]
    decide
  have value : digitsValue [first, second, third] =
      100 * (first.toNat - 48) + 10 * (second.toNat - 48) + (third.toNat - 48) := by
    simp only [digitsValue, List.foldl_cons, List.foldl_nil]
    omega
  simp only [parseStatusLine, version, number]
  rw [if_neg wellFormed, if_neg free, value]

/-- A response is read as its status line, its headers and its body. -/
theorem readResponse_of_head {text version reason : Text} {status : Nat} (plain : Plain text)
    (parsed : parseStatusLine text = .ok (version, status, reason))
    {fields : List (Text × Text)} (isField : ∀ header ∈ fields, Field header)
    (noTransfer : "transfer-encoding".toList ∉ (setItems [] fields).names)
    (noContent : "content-encoding".toList ∉ (setItems [] fields).names) (body : Bytes) :
    readResponse (lineBytes text ++
        (((fields.map fieldLine).map lineBytes).flatten ++ ([cr, lf] ++ body))) =
      .ok ⟨version, status, reason, setItems [] fields, body⟩ := by
  rw [readResponse, readLine_lineBytes plain, if_neg (lineBytes_ne_nil _)]
  simp only [decodeLine_lineBytes plain, bind, Except.bind, parsed, readHeaders_fields isField,
    if_neg noTransfer, if_neg noContent, pure, Except.pure]

/-- What the client's `dict` holds after the head of a response. -/
theorem lookup_received (headers : List (Text × Text)) (length : Nat) (name : Text) :
    (setItems [] (headers ++ framing length)).lookup name =
      if name = "content-length".toList then some length.repr.toList
      else if name = "connection".toList then some "close".toList
      else lastValue headers name := by
  have added : headers ++ framing length =
      (headers ++ [("Content-Length".toList, length.repr.toList)]) ++
        [("Connection".toList, "close".toList)] := by
    simp [framing]
  have connection : lower "Connection".toList = "connection".toList := by decide
  have contentLength : lower "Content-Length".toList = "content-length".toList := by decide
  have close : stripBlanks "close".toList = "close".toList := by decide
  have solid : stripBlanks length.repr.toList = length.repr.toList :=
    stripBlanks_of_solid fun _ member => (isDigit_facts (isDigit_of_mem_repr member)).2.2.1
  rw [lookup_setItems, List.lookup_nil, Option.or_none, added, lastValue_append, lastValue_append]
  dsimp only
  rw [connection, contentLength, close, solid]
  by_cases isLength : name = "content-length".toList
  · rw [if_pos isLength, if_pos isLength, if_neg]
    rw [isLength]
    decide
  · rw [if_neg isLength, if_neg isLength]

theorem lastValue_eq_none {headers : List (Text × Text)} {name : Text}
    (absent : ∀ header ∈ headers, lower header.1 ≠ name) : lastValue headers name = none := by
  rw [lastValue, Option.map_eq_none_iff, List.find?_eq_none]
  intro header member
  rw [decide_eq_true_eq]
  exact absent header (List.mem_reverse.mp member)

/-- **The response is read back.** For every status of three digits and a printable reason,
all headers that are tokens with ASCII values and name no encoding, and every body, the client
reads the version, the status, the reason and the body that the server wrote. Each name in
lower case is mapped to its last value without blanks around it, and the length and the
connection are always those that the server adds. -/
theorem readResponse_buildResponse {first second third : Char} {reason : Text}
    (digits : first.isDigit ∧ second.isDigit ∧ third.isDigit)
    (printable : ∀ character ∈ reason, 32 ≤ character.toNat ∧ character.toNat ≤ 126)
    {headers : List (Text × Text)} (fields : ∀ header ∈ headers, Field header)
    (plainCoding : ∀ header ∈ headers, lower header.1 ≠ "transfer-encoding".toList ∧
      lower header.1 ≠ "content-encoding".toList)
    (body : Bytes) :
    ∃ wire items,
      Server.buildResponse ([first, second, third] ++ ' ' :: reason) body headers = some wire ∧
      readResponse wire =
        .ok { version := "HTTP/1.1".toList
              status := 100 * (first.toNat - 48) + 10 * (second.toNat - 48) + (third.toNat - 48)
              reason
              headers := items
              body } ∧
      ∀ name, items.lookup name =
        if name = "content-length".toList then some body.length.repr.toList
        else if name = "connection".toList then some "close".toList
        else lastValue headers name := by
  have plainStatus : Plain ([first, second, third] ++ ' ' :: reason) := by
    apply plain_of_uncontrolled
    intro character member
    rcases List.mem_append.mp member with digit | member
    · have isDigit : character.isDigit = true := by
        simp only [List.mem_cons, List.not_mem_nil, or_false] at digit
        rcases digit with rfl | rfl | rfl
        · exact digits.1
        · exact digits.2.1
        · exact digits.2.2
      exact ⟨(isDigit_facts isDigit).1, (isDigit_facts isDigit).2.1⟩
    · rcases List.mem_cons.mp member with rfl | inReason
      · exact ⟨by decide, by decide⟩
      · exact uncontrolled_of_printable (printable character inReason)
  have all : ∀ header ∈ headers ++ framing body.length, Field header := by
    intro header member
    rcases List.mem_append.mp member with given | added
    · exact fields header given
    · exact framing_fields _ header added
  refine ⟨_, setItems [] (headers ++ framing body.length),
    buildResponse_eq plainStatus fields body, ?_, ?_⟩
  · have absent : ∀ name, name ≠ "content-length".toList → name ≠ "connection".toList →
        (∀ header ∈ headers, lower header.1 ≠ name) →
        name ∉ (setItems [] (headers ++ framing body.length)).names := by
      intro name notLength notConnection unused
      rw [mem_names_iff, lookup_received, if_neg notLength, if_neg notConnection,
        lastValue_eq_none unused]
      decide
    refine readResponse_of_head (Plain.append (by decide) plainStatus)
      (parseStatusLine_of_status digits printable) all ?_ ?_ body
    · exact absent _ (by decide) (by decide) fun header member => (plainCoding header member).1
    · exact absent _ (by decide) (by decide) fun header member => (plainCoding header member).2
  · exact lookup_received headers body.length

/-- A response with a header given twice and a body that looks like a head. -/
theorem readResponse_buildResponse_allow :
    ∃ wire items,
      Server.buildResponse "405 Method Not Allowed".toList (ascii "\r\n\r\nAllow: PUT\r\n")
        [("Allow".toList, "GET".toList), ("ALLOW".toList, "HEAD\t".toList)] = some wire ∧
      readResponse wire =
        .ok ⟨"HTTP/1.1".toList, 405, "Method Not Allowed".toList, items,
          ascii "\r\n\r\nAllow: PUT\r\n"⟩ ∧
      items.lookup "allow".toList = some "HEAD".toList := by
  have fields : ∀ header ∈ [("Allow".toList, "GET".toList), ("ALLOW".toList, "HEAD\t".toList)],
      Field header := by
    intro header member
    rcases List.mem_pair.mp member with rfl | rfl
    · exact ⟨by decide, List.all_iff_forall_prop.mp (by decide)⟩
    · exact ⟨by decide, List.all_iff_forall_prop.mp (by decide)⟩
  obtain ⟨wire, items, written, read, lookup⟩ :=
    @readResponse_buildResponse '4' '0' '5' "Method Not Allowed".toList (by decide)
      (List.all_iff_forall_prop.mp (by decide)) _ fields
      (List.all_iff_forall_prop.mp (by decide)) (ascii "\r\n\r\nAllow: PUT\r\n")
  refine ⟨wire, items, written, read, ?_⟩
  rw [lookup]
  decide

end Client

end InfraFromScratch.Http
