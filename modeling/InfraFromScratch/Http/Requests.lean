import InfraFromScratch.Foundations.Lines
import InfraFromScratch.Http.Application
import InfraFromScratch.Http.Server

/-!
# Parsing a request in the HTTP server

`parse_request` and the functions under it in `http-server/server.py`. The headers are a
`dict`, here the list of its items in the order they were added; a name is never added
twice. An error is a `ValueError`, given by its text.

`admitRequest` is what `handle_connection` does with a request before it prepares the
response: it parses the request and refuses one that frames a body.
-/

set_option autoImplicit false

namespace InfraFromScratch.Http

open Foundations Gateway

/-- `SUPPORTED_VERSIONS`. -/
def supportedVersions : List Text := ["HTTP/1.0".toList, "HTTP/1.1".toList]

/-- `TOKEN_SYMBOLS`. -/
def tokenSymbols : Text := "!#$%&'*+-.^_`|~".toList

/-- A character of a token. -/
def isTokenChar (character : Char) : Bool := character.isAlphanum || character ∈ tokenSymbols

/-- `_is_token`. -/
def isToken (value : Text) : Bool := value ≠ [] && isAscii value && value.all isTokenChar

/-- A control character that the parsers refuse in values: no tab. -/
def isControl (character : Char) : Bool :=
  (character.toNat < 32 && character ≠ '\t') || character.toNat = 127

/-- The items of a `dict` of headers. -/
abbrev Headers := List (Text × Text)

/-- The keys of a `dict` of headers. -/
def Headers.names (headers : Headers) : List Text := headers.map Prod.fst

namespace Server

/-- What `parse_request` returns. -/
structure ParsedRequest where
  method : Text
  target : Text
  version : Text
  headers : Headers
  deriving DecidableEq, Repr

/-- `parse_request_line`. -/
def parseRequestLine (line : Bytes) : Except String (Text × Text × Text) :=
  match (decodeAscii line).map (splitAround [' ']) with
  | some [method, target, version] =>
      if ¬ isToken method ∨ target.head? ≠ some '/' ∨
          target.any (fun character => character.toNat < 32 || character.toNat = 127) ∨
          version ∉ supportedVersions then
        .error "malformed request line"
      else .ok (method, target, version)
  | _ => .error "malformed request line"

/-- One turn of the loop of `parse_headers`. -/
def parseHeader (headers : Headers) (line : Bytes) : Except String Headers :=
  match cutAt ':' (decodeLatin1 line) with
  | none => .error "malformed header"
  | some (name, value) =>
      if ¬ isToken (casefold name) ∨ casefold name ∈ headers.names then
        .error "malformed header name"
      else if value.any isControl then .error "malformed header value"
      else .ok (headers ++ [(casefold name, stripBlanks value)])

/-- `parse_headers`. -/
def parseHeaders (block : Bytes) : Except String Headers :=
  (if block = [] then [] else splitAround [cr, lf] block).foldlM parseHeader []

/-- `parse_request`. -/
def parseRequest (request : Bytes) : Except String ParsedRequest :=
  match indexOf headerEnd request with
  | none => .error "incomplete request headers"
  | some index =>
      let lines := splitAround [cr, lf] (request.take index)
      if lines.headD [] = [] then .error "missing request line"
      else do
        let (method, target, version) ← parseRequestLine (lines.headD [])
        let headers ← parseHeaders ([cr, lf].intercalate lines.tail)
        return { method, target, version, headers }

/-- The lines of a request after the first, through the end of the headers. -/
def headerLines (request : Bytes) : List Bytes :=
  (splitAround [cr, lf] (cutAround headerEnd request).1).drop 1

/-- The key under which a line of the headers is stored. -/
def headerName (line : Bytes) : Text := casefold (decodeLatin1 (cutAround (ascii ":") line).1)

/-- `{"content-length", "transfer-encoding"}`. -/
def bodyHeaders : List Text := ["content-length".toList, "transfer-encoding".toList]

/-- The headers frame a body. -/
def framesBody (headers : Headers) : Bool := headers.names.any (· ∈ bodyHeaders)

/-- The part of `handle_connection` between reading a request and responding to it. -/
def admitRequest (request : Bytes) : Except String Request := do
  let parsed ← parseRequest request
  if framesBody parsed.headers then throw "request bodies are not supported"
  return ⟨parsed.method, parsed.target⟩

/-! ## The names that are accepted -/

/-- The colon of a line is that of its bytes. -/
theorem cutAt_decodeLatin1 {line : Bytes} {name value : Text}
    (found : cutAt ':' (decodeLatin1 line) = some (name, value)) :
    decodeLatin1 (cutAround (ascii ":") line).1 = name := by
  have cut := cutAt_map latin1Char_injective 58 line
  obtain ⟨parts, bytes, same⟩ := Option.map_eq_some_iff.mp (cut.symm.trans found)
  obtain ⟨rfl, clean⟩ := cutAt_eq_some_iff.mp bytes
  rw [show ascii ":" = [58] from rfl, cutAround_singleton clean]
  exact (Prod.mk.inj same).1

/-- A line that is accepted adds its name, which is a token. -/
theorem parseHeader_ok {headers result : Headers} {line : Bytes}
    (accepted : parseHeader headers line = .ok result) :
    line ≠ [] ∧ isToken (headerName line) = true ∧
      result.names = headers.names ++ [headerName line] := by
  unfold parseHeader at accepted
  cases found : cutAt ':' (decodeLatin1 line) with
  | none => simp [found] at accepted
  | some parts =>
      obtain ⟨name, value⟩ := parts
      have named : headerName line = casefold name := by
        rw [headerName, cutAt_decodeLatin1 found]
      simp only [found] at accepted
      split at accepted
      · cases accepted
      · rename_i wellNamed
        split at accepted
        · cases accepted
        · obtain rfl := Except.ok.inj accepted
          refine ⟨?_, ?_, ?_⟩
          · rintro rfl
            cases found
          · rw [named]
            exact not_not.mp (not_or.mp wellNamed).1
          · rw [named]
            exact List.map_append

/-- The loop of `parse_headers` keeps the names and adds one for each line. -/
theorem foldlM_parseHeader_ok {lines : List Bytes} {headers result : Headers}
    (accepted : lines.foldlM parseHeader headers = .ok result) :
    (∀ line ∈ lines, line ≠ [] ∧ isToken (headerName line) = true) ∧
      result.names = headers.names ++ lines.map headerName := by
  induction lines generalizing headers with
  | nil =>
      obtain rfl := Except.ok.inj accepted
      exact ⟨by simp, by simp⟩
  | cons line rest ih =>
      rw [List.foldlM_cons] at accepted
      cases first : parseHeader headers line with
      | error text =>
          rw [first] at accepted
          cases accepted
      | ok next =>
          rw [first] at accepted
          obtain ⟨nonempty, token, added⟩ := parseHeader_ok first
          obtain ⟨tokens, names⟩ := ih accepted
          refine ⟨?_, ?_⟩
          · intro other member
            rcases List.mem_cons.mp member with rfl | later
            · exact ⟨nonempty, token⟩
            · exact tokens other later
          · rw [names, added, List.append_assoc, List.map_cons, List.singleton_append]

/-- An accepted request has an end of headers, and both parts of what stands before it are
accepted. -/
theorem parseRequest_ok {request : Bytes} {parsed : ParsedRequest}
    (accepted : parseRequest request = .ok parsed) :
    ∃ index, indexOf headerEnd request = some index ∧
      parseRequestLine ((splitAround [cr, lf] (request.take index)).headD []) =
        .ok (parsed.method, parsed.target, parsed.version) ∧
      parseHeaders ([cr, lf].intercalate (splitAround [cr, lf] (request.take index)).tail) =
        .ok parsed.headers := by
  unfold parseRequest at accepted
  cases found : indexOf headerEnd request with
  | none => simp [found] at accepted
  | some index =>
      refine ⟨index, rfl, ?_⟩
      simp only [found] at accepted
      split at accepted
      · cases accepted
      · cases line : parseRequestLine ((splitAround [cr, lf] (request.take index)).headD []) with
        | error text => simp only [line, bind, Except.bind, reduceCtorEq] at accepted
        | ok parts =>
            cases fields : parseHeaders
                ([cr, lf].intercalate (splitAround [cr, lf] (request.take index)).tail) with
            | error text => simp only [line, fields, bind, Except.bind, reduceCtorEq] at accepted
            | ok headers =>
                simp only [line, fields, bind, Except.bind, pure, Except.pure] at accepted
                rw [← Except.ok.inj accepted]
                exact ⟨rfl, rfl⟩

/-- The headers of an accepted request are parsed from its lines. -/
theorem parseRequest_headers {request : Bytes} {parsed : ParsedRequest}
    (accepted : parseRequest request = .ok parsed) :
    parseHeaders ([cr, lf].intercalate (headerLines request)) = .ok parsed.headers := by
  obtain ⟨index, found, -, fields⟩ := parseRequest_ok accepted
  rwa [headerLines, cutAround, found, List.drop_one]

/-- Where the lines together are empty, so is each of them. -/
theorem eq_nil_of_intercalate {lines : List Bytes} (empty : [cr, lf].intercalate lines = [])
    {line : Bytes} (member : line ∈ lines) : line = [] := by
  cases lines with
  | nil => cases member
  | cons first rest =>
      cases rest with
      | nil =>
          rw [List.intercalate_singleton] at empty
          rw [List.mem_singleton.mp member, empty]
      | cons second others =>
          rw [List.intercalate_cons_of_ne_nil (List.cons_ne_nil _ _)] at empty
          simp at empty

/-- **The names of an accepted request** are those of its lines, and they are tokens. -/
theorem parseRequest_names {request : Bytes} {parsed : ParsedRequest}
    (accepted : parseRequest request = .ok parsed) :
    (∀ line ∈ headerLines request, line ≠ [] → isToken (headerName line) = true) ∧
      ∀ name, name ∈ parsed.headers.names ↔
        ∃ line ∈ headerLines request, line ≠ [] ∧ headerName line = name := by
  have fields := parseRequest_headers accepted
  rw [parseHeaders] at fields
  by_cases empty : [cr, lf].intercalate (headerLines request) = []
  · rw [if_pos empty] at fields
    obtain ⟨-, names⟩ := foldlM_parseHeader_ok fields
    refine ⟨?_, ?_⟩
    · intro line member nonempty
      exact absurd (eq_nil_of_intercalate empty member) nonempty
    · intro name
      rw [names]
      refine ⟨fun member => (List.not_mem_nil member).elim, ?_⟩
      rintro ⟨line, member, nonempty, -⟩
      exact absurd (eq_nil_of_intercalate empty member) nonempty
  · have more : headerLines request ≠ [] := by
      intro nothing
      rw [nothing] at empty
      exact empty rfl
    rw [headerLines, List.drop_one] at more
    have again := splitAround_intercalate_tail (List.cons_ne_nil cr [lf]) more
    rw [← List.drop_one, ← headerLines] at again
    rw [if_neg empty, again] at fields
    obtain ⟨tokens, names⟩ := foldlM_parseHeader_ok fields
    refine ⟨fun line member _ => (tokens line member).2, ?_⟩
    intro name
    rw [names, Headers.names, List.map_nil, List.nil_append, List.mem_map]
    constructor
    · rintro ⟨line, member, named⟩
      exact ⟨line, member, (tokens line member).1, named⟩
    · rintro ⟨line, member, -, named⟩
      exact ⟨line, member, named⟩

end Server

end InfraFromScratch.Http
