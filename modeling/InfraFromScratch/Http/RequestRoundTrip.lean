import InfraFromScratch.Http.Responses

/-!
# A request that is written well is read as it was written

`parse_request` cuts at the first empty line, splits what is before it into lines, joins all
but the first again, splits them once more, and decodes the first as ASCII and the others as
Latin-1. Here a request is written from its parts (`renderRequest`), and parsing gives the
parts back, with the names in lower case and the values stripped
(`parseRequest_renderRequest`).

Nothing that may stand in a part contains a carriage return. So the lines are found where
they were written, and the first end of headers is the one that was written, whatever
follows it.
-/

set_option autoImplicit false

namespace InfraFromScratch.Http

open Foundations Gateway

/-! ## Bytes of text -/

/-- A byte is in the bytes of a text when its character is in the text. -/
theorem mem_latin1Bytes_iff {text : Text} (small : ∀ character ∈ text, character.toNat < 256)
    {byte : UInt8} : byte ∈ latin1Bytes text ↔ latin1Char byte ∈ text := by
  rw [← List.mem_map_of_injective latin1Char_injective]
  exact iff_of_eq (congrArg (latin1Char byte ∈ ·) (decodeLatin1_latin1Bytes small))

theorem decodeAscii_latin1Bytes {text : Text} (small : ∀ character ∈ text, character.toNat < 128) :
    decodeAscii (latin1Bytes text) = some text := by
  have kept : decodeLatin1 (latin1Bytes text) = text :=
    decodeLatin1_latin1Bytes fun character member => (small character member).trans (by omega)
  have allAscii : (latin1Bytes text).all (fun byte => byte.toNat < 128) = true := by
    rw [List.all_eq_true]
    intro byte member
    have inText : latin1Char byte ∈ text := by
      rw [← kept]
      exact List.mem_map_of_mem member
    rw [decide_eq_true_eq, ← latin1Char_toNat byte]
    exact small _ inText
  rw [decodeAscii, if_pos allAscii, kept]

namespace Server

open Client (lower casefold_of_token isToken_lower token_char)

/-! ## Writing a request -/

/-- The parts of a request that may be sent. -/
structure WellFormed (request : ParsedRequest) : Prop where
  method : isToken request.method = true
  slash : request.target.head? = some '/'
  target : ∀ character ∈ request.target, 32 < character.toNat ∧ character.toNat < 127
  version : request.version ∈ supportedVersions
  names : ∀ header ∈ request.headers, isToken header.1 = true
  distinct : request.headers.Pairwise fun one other => lower one.1 ≠ lower other.1
  values : ∀ header ∈ request.headers, ∀ character ∈ header.2,
    character.toNat < 256 ∧ isControl character = false

/-- The text of the request line. -/
def requestLine (request : ParsedRequest) : Text :=
  request.method ++ [' '] ++ request.target ++ [' '] ++ request.version

/-- The text of a header line. -/
def headerLine (header : Text × Text) : Text := header.1 ++ [':'] ++ header.2

/-- The request line, one line for each header, an empty line, and what follows. -/
def renderRequest (request : ParsedRequest) (trailing : Bytes) : Bytes :=
  latin1Bytes (requestLine request) ++ [cr, lf] ++
    (request.headers.map fun header => latin1Bytes (headerLine header) ++ [cr, lf]).flatten ++
    [cr, lf] ++ trailing

/-! ## The end of the headers -/

/-- Joined lines start with the first byte of the first line. -/
theorem intercalate_head {separator first : Bytes} {lines : List Bytes} (nonempty : first ≠ []) :
    ∃ byte rest, byte ∈ first ∧ separator.intercalate (first :: lines) = byte :: rest := by
  cases first with
  | nil => exact absurd rfl nonempty
  | cons byte bytes =>
      by_cases last : lines = []
      · exact ⟨byte, bytes, List.mem_cons_self, by rw [last, List.intercalate_singleton]⟩
      · exact ⟨byte, _, List.mem_cons_self, by
          rw [List.intercalate_cons_of_ne_nil last, List.cons_append, List.cons_append]⟩

/-- Lines with the separator between them and after the last. -/
theorem intercalate_append_separator (separator : Bytes) {lines : List Bytes}
    (nonempty : lines ≠ []) :
    separator.intercalate lines ++ separator = (lines.map (· ++ separator)).flatten := by
  induction lines with
  | nil => exact absurd rfl nonempty
  | cons line lines ih =>
      by_cases last : lines = []
      · simp [last]
      · rw [List.intercalate_cons_of_ne_nil last, List.append_assoc, ih last, List.map_cons,
          List.flatten_cons]

/-- Between two lines there is no end of headers. -/
theorem indexOf_headerEnd_skip {byte : UInt8} (differs : byte ≠ cr) (rest : Bytes) :
    indexOf headerEnd (cr :: lf :: byte :: rest) =
      (indexOf headerEnd (byte :: rest)).map (· + 2) := by
  have notFirst : ¬ headerEnd <+: cr :: lf :: byte :: rest := by
    simp [headerEnd, List.cons_prefix_cons, Ne.symm differs]
  have notSecond : ¬ headerEnd <+: lf :: byte :: rest := by
    rw [headerEnd, List.cons_prefix_cons]
    exact fun same => absurd same.1 (by decide)
  rw [indexOf, if_neg notFirst, indexOf, if_neg notSecond, Option.map_map]
  rfl

/-- **The end of the headers** is the empty line after nonempty lines without carriage
returns. -/
theorem indexOf_headerEnd {lines : List Bytes} (nonempty : lines ≠ [])
    (clean : ∀ line ∈ lines, line ≠ [] ∧ cr ∉ line) (rest : Bytes) :
    indexOf headerEnd ([cr, lf].intercalate lines ++ (headerEnd ++ rest)) =
      some ([cr, lf].intercalate lines).length := by
  induction lines with
  | nil => exact absurd rfl nonempty
  | cons line lines ih =>
      obtain ⟨-, cleanLine⟩ := clean line List.mem_cons_self
      by_cases last : lines = []
      · rw [last, List.intercalate_singleton]
        exact indexOf_of_clean cleanLine [lf, cr, lf] rest
      · have later := ih last fun other member => clean other (List.mem_cons_of_mem _ member)
        obtain ⟨second, others, rfl⟩ := List.exists_cons_of_ne_nil last
        obtain ⟨solid, cleanSecond⟩ := clean second (List.mem_cons_of_mem _ List.mem_cons_self)
        obtain ⟨byte, bytes, member, starts⟩ := @intercalate_head [cr, lf] second others solid
        have differs : byte ≠ cr := by
          rintro rfl
          exact cleanSecond member
        have shape : [cr, lf].intercalate (line :: second :: others) =
            line ++ cr :: lf :: byte :: bytes := by
          rw [List.intercalate_cons_of_ne_nil last, starts, List.append_assoc]
          rfl
        rw [starts, List.cons_append] at later
        rw [shape, List.append_assoc]
        refine (indexOf_clean_append cleanLine [lf, cr, lf] _).trans ?_
        refine (congrArg _ ((indexOf_headerEnd_skip differs _).trans (congrArg _ later))).trans ?_
        simp only [Option.map_some, Option.some.injEq, List.length_append, List.length_cons]
        omega

/-- The lines of a block of headers are found again. -/
theorem blockLines_intercalate {lines : List Bytes}
    (clean : ∀ line ∈ lines, line ≠ [] ∧ cr ∉ line) :
    (if [cr, lf].intercalate lines = [] then []
      else splitAround [cr, lf] ([cr, lf].intercalate lines)) = lines := by
  cases lines with
  | nil => rfl
  | cons first rest =>
      obtain ⟨byte, bytes, -, starts⟩ :=
        @intercalate_head [cr, lf] first rest (clean first List.mem_cons_self).1
      rw [if_neg (by rw [starts]; exact List.cons_ne_nil _ _)]
      exact splitAround_intercalate (List.cons_ne_nil _ _) fun line member => (clean line member).2

/-- **A request of clean lines**: the first is read as the request line, and the loop of
`parse_headers` reads the others. -/
theorem parseRequest_lines {first : Bytes} {others : List Bytes}
    (clean : ∀ line ∈ first :: others, line ≠ [] ∧ cr ∉ line) (trailing : Bytes) :
    parseRequest ([cr, lf].intercalate (first :: others) ++ (headerEnd ++ trailing)) = (do
      let (method, target, version) ← parseRequestLine first
      let headers ← others.foldlM parseHeader []
      return { method, target, version, headers }) := by
  have found := indexOf_headerEnd (List.cons_ne_nil first others) clean trailing
  have lines : splitAround [cr, lf] ([cr, lf].intercalate (first :: others)) = first :: others :=
    splitAround_intercalate (List.cons_ne_nil _ _) fun line member => (clean line member).2
  rw [parseRequest, found]
  dsimp only
  rw [List.take_left, lines, List.headD_cons, List.tail_cons,
    if_neg (clean first List.mem_cons_self).1, parseHeaders,
    blockLines_intercalate fun line member => clean line (List.mem_cons_of_mem _ member)]

/-! ## Lines of a well formed request -/

section Lines

variable {request : ParsedRequest}

/-- A character that is no symbol of tokens is not in a token. -/
theorem notMem_of_token {text : Text} (token : isToken text = true) {character : Char}
    (noSymbol : isTokenChar character = false) : character ∉ text := by
  intro member
  rw [(token_char token member).2] at noSymbol
  cases noSymbol

theorem WellFormed.notMem_target (wellFormed : WellFormed request) {character : Char}
    (outside : character.toNat ≤ 32) : character ∉ request.target := by
  intro member
  have printable := wellFormed.target character member
  omega

/-- The supported versions are ASCII without spaces and carriage returns. -/
theorem version_char {version : Text} (supported : version ∈ supportedVersions) :
    ∀ character ∈ version, character.toNat < 128 ∧ character ≠ ' ' ∧ character ≠ '\r' := by
  have old : ∀ character ∈ "HTTP/1.0".toList,
      character.toNat < 128 ∧ character ≠ ' ' ∧ character ≠ '\r' :=
    List.all_iff_forall_prop.mp (by decide)
  have new : ∀ character ∈ "HTTP/1.1".toList,
      character.toNat < 128 ∧ character ≠ ' ' ∧ character ≠ '\r' :=
    List.all_iff_forall_prop.mp (by decide)
  simp only [supportedVersions, List.mem_cons, List.not_mem_nil, or_false] at supported
  rcases supported with rfl | rfl
  · exact old
  · exact new

theorem WellFormed.small_requestLine (wellFormed : WellFormed request) :
    ∀ character ∈ requestLine request, character.toNat < 128 := by
  intro character member
  simp only [requestLine, List.mem_append, List.mem_singleton] at member
  rcases member with (((inMethod | rfl) | inTarget) | rfl) | inVersion
  · exact (token_char wellFormed.method inMethod).1
  · decide
  · have printable := wellFormed.target character inTarget
    omega
  · decide
  · exact (version_char wellFormed.version character inVersion).1

theorem WellFormed.cr_notMem_requestLine (wellFormed : WellFormed request) :
    cr ∉ latin1Bytes (requestLine request) := by
  rw [mem_latin1Bytes_iff fun character member =>
    (wellFormed.small_requestLine character member).trans (by omega)]
  have carriage : latin1Char cr = '\r' := by decide
  simp only [requestLine, carriage, List.mem_append, List.mem_singleton, not_or]
  exact ⟨⟨⟨⟨notMem_of_token wellFormed.method (by decide), by decide⟩,
    wellFormed.notMem_target (by decide)⟩, by decide⟩,
    fun member => (version_char wellFormed.version _ member).2.2 rfl⟩

/-- The request line is read back. -/
theorem parseRequestLine_requestLine (wellFormed : WellFormed request) :
    parseRequestLine (latin1Bytes (requestLine request)) =
      .ok (request.method, request.target, request.version) := by
  have pieces : splitAround [' '] (requestLine request) =
      [request.method, request.target, request.version] := by
    have joined : requestLine request =
        [' '].intercalate [request.method, request.target, request.version] := by
      simp [requestLine, List.intercalate]
    rw [joined]
    refine splitAround_intercalate (List.cons_ne_nil _ _) fun piece member => ?_
    simp only [List.mem_cons, List.not_mem_nil, or_false] at member
    rcases member with rfl | rfl | rfl
    · exact notMem_of_token wellFormed.method (by decide)
    · exact wellFormed.notMem_target (by decide)
    · exact fun inVersion => (version_char wellFormed.version _ inVersion).2.1 rfl
  have printable : request.target.any
      (fun character => character.toNat < 32 || character.toNat = 127) = false := by
    rw [List.any_eq_false]
    intro character member
    have bounds := wellFormed.target character member
    simp only [Bool.or_eq_true, decide_eq_true_eq, not_or]
    omega
  rw [parseRequestLine, decodeAscii_latin1Bytes wellFormed.small_requestLine, Option.map_some,
    pieces]
  dsimp only
  rw [if_neg]
  simp only [wellFormed.method, wellFormed.slash, printable, wellFormed.version, not_true_eq_false,
    ne_eq, Bool.false_eq_true, or_self, not_false_eq_true]

variable {header : Text × Text}

theorem WellFormed.small_headerLine (wellFormed : WellFormed request)
    (member : header ∈ request.headers) :
    ∀ character ∈ headerLine header, character.toNat < 256 := by
  intro character inLine
  simp only [headerLine, List.mem_append, List.mem_singleton] at inLine
  rcases inLine with (inName | rfl) | inValue
  · exact (token_char (wellFormed.names header member) inName).1.trans (by omega)
  · decide
  · exact (wellFormed.values header member character inValue).1

theorem WellFormed.cr_notMem_headerLine (wellFormed : WellFormed request)
    (member : header ∈ request.headers) : cr ∉ latin1Bytes (headerLine header) := by
  rw [mem_latin1Bytes_iff (wellFormed.small_headerLine member)]
  have carriage : latin1Char cr = '\r' := by decide
  simp only [headerLine, carriage, List.mem_append, List.mem_singleton, not_or]
  refine ⟨⟨notMem_of_token (wellFormed.names header member) (by decide), by decide⟩, ?_⟩
  intro inValue
  exact absurd (wellFormed.values header member _ inValue).2 (by decide)

/-- A header line is read back, and added under its name when that is new. -/
theorem parseHeader_headerLine (wellFormed : WellFormed request)
    (member : header ∈ request.headers) {headers : Headers}
    (fresh : lower header.1 ∉ headers.names) :
    parseHeader headers (latin1Bytes (headerLine header)) =
      .ok (headers ++ [(lower header.1, stripBlanks header.2)]) := by
  have token := wellFormed.names header member
  have cut : cutAt ':' (headerLine header) = some (header.1, header.2) := by
    rw [headerLine, List.append_assoc]
    exact cutAt_append (notMem_of_token token (by decide)) header.2
  have free : header.2.any isControl = false := by
    rw [List.any_eq_false]
    intro character inValue
    rw [(wellFormed.values header member character inValue).2]
    decide
  rw [parseHeader, decodeLatin1_latin1Bytes (wellFormed.small_headerLine member), cut]
  dsimp only
  rw [casefold_of_token token, isToken_lower token, free, if_neg, if_neg]
  · decide
  · simp [fresh]

end Lines

/-! ## The round trip -/

/-- The headers as the `dict` holds them: names in lower case, values stripped. -/
def stored (headers : List (Text × Text)) : Headers :=
  headers.map fun header => (lower header.1, stripBlanks header.2)

/-- The loop of `parse_headers` reads the lines of well formed headers. The induction carries
the headers that were already read, whose names differ from those to come. -/
theorem foldlM_headerLines {request : ParsedRequest} (wellFormed : WellFormed request)
    {done todo : List (Text × Text)} (split : request.headers = done ++ todo) :
    (todo.map fun header => latin1Bytes (headerLine header)).foldlM parseHeader (stored done) =
      .ok (stored request.headers) := by
  induction todo generalizing done with
  | nil =>
      rw [split, List.append_nil]
      rfl
  | cons header todo ih =>
      have member : header ∈ request.headers := by simp [split]
      have fresh : lower header.1 ∉ (stored done).names := by
        intro present
        obtain ⟨item, isItem, named⟩ := List.mem_map.mp present
        obtain ⟨earlier, isEarlier, rfl⟩ := List.mem_map.mp isItem
        have distinct := wellFormed.distinct
        rw [split] at distinct
        exact (List.pairwise_append.mp distinct).2.2 earlier isEarlier header List.mem_cons_self
          named
      have next : stored done ++ [(lower header.1, stripBlanks header.2)] =
          stored (done ++ [header]) := by
        simp [stored]
      rw [List.map_cons, List.foldlM_cons, parseHeader_headerLine wellFormed member fresh, next]
      exact ih (by rw [split, List.append_assoc, List.singleton_append])

/-- **Parsing is complete and faithful.** A well formed request, written line by line and
followed by any bytes, is parsed to its method, target and version and to its headers, each
under its name in lower case and with its value stripped of spaces and tabs. -/
theorem parseRequest_renderRequest (request : ParsedRequest) (wellFormed : WellFormed request)
    (trailing : Bytes) :
    parseRequest (renderRequest request trailing) =
      .ok { method := request.method
            target := request.target
            version := request.version
            headers := request.headers.map fun header => (lower header.1, stripBlanks header.2) } := by
  let first := latin1Bytes (requestLine request)
  let others := request.headers.map fun header => latin1Bytes (headerLine header)
  have clean : ∀ line ∈ first :: others, line ≠ [] ∧ cr ∉ line := by
    intro line member
    rcases List.mem_cons.mp member with rfl | later
    · exact ⟨by simp [first, latin1Bytes, requestLine], wellFormed.cr_notMem_requestLine⟩
    · obtain ⟨header, isHeader, rfl⟩ := List.mem_map.mp later
      exact ⟨by simp [latin1Bytes, headerLine], wellFormed.cr_notMem_headerLine isHeader⟩
  have written : renderRequest request trailing =
      [cr, lf].intercalate (first :: others) ++ (headerEnd ++ trailing) := by
    have joined := intercalate_append_separator [cr, lf] (List.cons_ne_nil first others)
    have twice : headerEnd ++ trailing = [cr, lf] ++ ([cr, lf] ++ trailing) := rfl
    rw [twice, ← List.append_assoc, joined]
    simp [renderRequest, first, others, Function.comp_def]
  have parsedHeaders : others.foldlM parseHeader [] = .ok (stored request.headers) :=
    @foldlM_headerLines request wellFormed [] request.headers rfl
  rw [written, parseRequest_lines clean, parseRequestLine_requestLine wellFormed, parsedHeaders]
  rfl

/-- A request whose header value has a colon, a byte beyond ASCII and blanks around it. -/
def cafeRequest : ParsedRequest where
  method := "GET".toList
  target := "/menu?day=1".toList
  version := "HTTP/1.0".toList
  headers := [("Host".toList, " café:80\t".toList)]

theorem wellFormed_cafeRequest : WellFormed cafeRequest where
  method := by decide
  slash := by decide
  target := List.all_iff_forall_prop.mp (by decide)
  version := by decide
  names := List.all_iff_forall_prop.mp (by decide)
  distinct := List.pairwise_singleton _ _
  values := by
    intro header member
    rw [List.mem_singleton.mp member]
    exact List.all_iff_forall_prop.mp (by decide)

/-- It is read back although another end of headers follows. -/
theorem parseRequest_cafeRequest :
    parseRequest (renderRequest cafeRequest (ascii "GET\r\n\r\n")) =
      .ok { method := "GET".toList
            target := "/menu?day=1".toList
            version := "HTTP/1.0".toList
            headers := [("host".toList, "café:80".toList)] } :=
  (parseRequest_renderRequest cafeRequest wellFormed_cafeRequest (ascii "GET\r\n\r\n")).trans
    (by decide)

end Server

end InfraFromScratch.Http
