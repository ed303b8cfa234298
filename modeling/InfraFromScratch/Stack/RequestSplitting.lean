import InfraFromScratch.Http.AcceptedRequests
import InfraFromScratch.Http.Address

/-!
# When the address of a client splits its request

`URL` cuts an address at `://`, at the first slash and at the last colon, and `URL.request` copies
the path into the request line and the authority into the `Host` header. Neither looks for line
breaks. The server's `parse_request` ends the request line and every header at the first line
break.

An address without a line break is read as it was meant, or not at all
(`not_splits_of_oneLine`). One whose path goes on after a target and a version, or whose authority
goes on after a line break, is read as another request when what follows reads as header
lines (`request_whole_iff`).
-/

set_option autoImplicit false

namespace InfraFromScratch.Http

open Foundations

/-- The bytes that `URL.request` sends once it is connected. -/
def Client.URL.request (url : Client.URL) : Bytes :=
  encodeUtf8 ("GET ".toList ++ url.path ++ " HTTP/1.0\r\n".toList ++
    ("Host: ".toList ++ url.hostHeader ++ "\r\n".toList) ++ "\r\n".toList)

end InfraFromScratch.Http

namespace InfraFromScratch.Stack

open Foundations Gateway Http Http.Server Http.Client

/-- A line break. -/
abbrev lineBreak : Text := ['\r', '\n']

/-- The target of a request: a slash, and then ASCII characters that are neither spaces nor
control characters. -/
structure TargetText (target : Text) : Prop where
  slash : target.head? = some '/'
  printable : ∀ character ∈ target, 32 < character.toNat ∧ character.toNat < 127

/-- The text starts with header lines that the server accepts, and an empty line after them. -/
def HeaderBlock (text : Text) : Prop :=
  ∃ fields tail, encodeUtf8 text = fieldSection fields tail ∧ SoundFields (fields.map spell)

/-- The address is an authority and a path, with `http://` in front or without any `://`. The path
is a slash where the address has none. -/
def AddressParts (address authority path : Text) : Prop :=
  ∃ rest, (address = rest ∧ ¬ schemeEnd <:+: address ∨ address = "http://".toList ++ rest) ∧
    '/' ∉ authority ∧ (rest = authority ++ path ∧ path.head? = some '/' ∨
      rest = authority ∧ path = ['/'])

/-- The path brings a request line of its own, and what follows it reads as header lines. -/
def PathSplits (authority path : Text) : Prop :=
  ∃ target version more, path = target ++ [' '] ++ version ++ lineBreak ++ more ∧
    TargetText target ∧ version ∈ supportedVersions ∧
    HeaderBlock (more ++ " HTTP/1.0\r\nHost: ".toList ++ authority ++ "\r\n\r\n".toList)

/-- The authority goes on after a line break, and its lines read as header lines. -/
def AuthoritySplits (authority path : Text) : Prop :=
  TargetText path ∧ lineBreak <:+: authority ∧
    HeaderBlock ("Host: ".toList ++ authority ++ "\r\n\r\n".toList)

/-- The address makes another request than the one for its path. -/
def Splits (address : Text) : Prop :=
  ∃ authority path, AddressParts address authority path ∧
    (PathSplits authority path ∨ AuthoritySplits authority path)

/-- The server read the request that was meant: the path of the address as the target, one header,
and nothing after the headers. -/
structure ReadsWhole (url : URL) (parsed : ParsedRequest) : Prop where
  method : parsed.method = "GET".toList
  target : parsed.target = url.path
  version : parsed.version = "HTTP/1.0".toList
  headers : parsed.headers.names = ["host".toList]
  nothing : (cutAround headerEnd url.request).2 = []

/-! ## The parts of an address -/

section Parts

variable {decimalOf : Char → Option (Fin 10)} {address authority path : Text} {url : URL}

theorem splitPath_iff {rest : Text} :
    splitPath rest = (authority, path) ↔
      '/' ∉ authority ∧ (rest = authority ++ path ∧ path.head? = some '/' ∨
        rest = authority ∧ path = ['/']) := by
  constructor
  · intro split
    unfold splitPath at split
    cases found : cutAt '/' rest with
    | none =>
        rw [found] at split
        obtain ⟨rfl, rfl⟩ := Prod.mk.inj split
        exact ⟨cutAt_eq_none_iff.mp found, .inr ⟨rfl, rfl⟩⟩
    | some parts =>
        rw [found] at split
        obtain ⟨rfl, rfl⟩ := Prod.mk.inj split
        obtain ⟨whole, clean⟩ := cutAt_eq_some_iff.mp found
        exact ⟨clean, .inl ⟨whole, rfl⟩⟩
  · rintro ⟨clean, ⟨rfl, slash⟩ | ⟨rfl, rfl⟩⟩
    · obtain ⟨more, rfl⟩ := List.head?_eq_some_iff.mp slash
      exact splitPath_append clean more
    · rw [splitPath, cutAt_eq_none_iff.mpr clean]

theorem checked_parts {host : Text} {port : Int}
    (accepted : URL.checked authority path host port = .ok url) :
    (authority, path) = (url.hostHeader, url.path) := by
  unfold URL.checked at accepted
  split at accepted
  · cases accepted
  · split at accepted
    · cases accepted
    · rw [← Except.ok.inj accepted]

/-- What `URL.__init__` accepts after the scheme keeps its parts. -/
theorem ofRest_parts {rest : Text} (accepted : URL.ofRest decimalOf rest = .ok url) :
    splitPath rest = (url.hostHeader, url.path) := by
  unfold URL.ofRest at accepted
  dsimp only at accepted
  split at accepted
  · split at accepted
    · cases accepted
    · exact checked_parts accepted
  · exact checked_parts accepted

/-- The parts of an address that is accepted. -/
theorem addressParts_of_init (accepted : URL.init decimalOf address = .ok url) :
    AddressParts address url.hostHeader url.path := by
  by_cases bare : schemeEnd <:+: address
  · have found : indexOf schemeEnd address ≠ none := mt indexOf_eq_none_iff.mp (not_not.mpr bare)
    obtain ⟨index, isIndex⟩ := Option.ne_none_iff_exists'.mp found
    rw [URL.init, if_neg found, cutAround, isIndex] at accepted
    dsimp only at accepted
    split at accepted
    · cases accepted
    · rename_i scheme
      have whole := take_append_drop_of_found isIndex
      rw [not_not.mp scheme] at whole
      exact ⟨_, .inr whole.symm, splitPath_iff.mp (ofRest_parts accepted)⟩
  · rw [init_bare bare] at accepted
    exact ⟨address, .inl ⟨rfl, bare⟩, splitPath_iff.mp (ofRest_parts accepted)⟩

/-- An address that is accepted has no other parts. -/
theorem AddressParts.eq_of_init (parts : AddressParts address authority path)
    (accepted : URL.init decimalOf address = .ok url) :
    authority = url.hostHeader ∧ path = url.path := by
  obtain ⟨rest, form, split⟩ := parts
  have read : URL.ofRest decimalOf rest = .ok url := by
    rcases form with ⟨rfl, bare⟩ | rfl
    · rwa [init_bare bare] at accepted
    · rwa [init_explicit] at accepted
  exact Prod.mk.inj ((splitPath_iff.mpr split).symm.trans (ofRest_parts read))

/-- The line breaks of the parts are in the address. -/
theorem AddressParts.lineBreak (parts : AddressParts address authority path)
    (broken : Stack.lineBreak <:+: authority ∨ Stack.lineBreak <:+: path) :
    Stack.lineBreak <:+: address := by
  obtain ⟨rest, form, -, split⟩ := parts
  have inRest : Stack.lineBreak <:+: rest := by
    rcases split with ⟨rfl, -⟩ | ⟨rfl, rfl⟩
    · rcases broken with inside | inside
      · exact List.infix_append_of_infix_left inside
      · exact List.infix_append_of_infix_right inside
    · rcases broken with inside | inside
      · exact inside
      · exact absurd inside (by decide)
  rcases form with ⟨rfl, -⟩ | rfl
  · exact inRest
  · exact List.infix_append_of_infix_right inRest

end Parts

/-- **An address without a line break does not split.** -/
theorem not_splits_of_oneLine {address : Text} (oneLine : ¬ lineBreak <:+: address) :
    ¬ Splits address := by
  rintro ⟨authority, path, parts, pathSplits | authoritySplits⟩
  · obtain ⟨target, version, more, rfl, -⟩ := pathSplits
    exact oneLine (parts.lineBreak (.inr (List.infix_append _ _ _)))
  · exact oneLine (parts.lineBreak (.inl authoritySplits.2.1))

/-! ## A request that starts with a line of the client -/

section FirstLine

variable {line rest : Text}

theorem lineBreak_infix_encodeUtf8_iff {text : Text} :
    [cr, lf] <:+: encodeUtf8 text ↔ lineBreak <:+: text :=
  pair_infix_encodeUtf8_iff (by decide) (by decide)

/-- What the client writes in front of a text brings no line break. -/
theorem not_lineBreak_infix_encodeUtf8 {front text : Text} (clean : '\r' ∉ front)
    (oneLine : ¬ lineBreak <:+: text) : ¬ [cr, lf] <:+: encodeUtf8 (front ++ text) := by
  rw [lineBreak_infix_encodeUtf8_iff]
  refine not_pair_infix_append (fun inside => ?_) oneLine (.inl clean)
  exact clean (inside.mem List.mem_cons_self)

theorem encodeUtf8_lineBreak (front back : Text) :
    encodeUtf8 (front ++ lineBreak ++ back) = encodeUtf8 front ++ cr :: lf :: encodeUtf8 back := by
  have pair : encodeUtf8 lineBreak = [cr, lf] := by decide
  rw [encodeUtf8_append, encodeUtf8_append, pair, List.append_assoc]
  rfl

/-- **What an accepted request says of its first line** and of the text after it. -/
theorem parseRequest_get {parsed : ParsedRequest} (oneLine : ¬ lineBreak <:+: line)
    (accepted : parseRequest (encodeUtf8 ("GET ".toList ++ line ++ lineBreak ++ rest)) =
      .ok parsed) :
    parsed.method = "GET".toList ∧ line = parsed.target ++ ' ' :: parsed.version ∧
      TargetText parsed.target ∧ parsed.version ∈ supportedVersions ∧
      ∃ fields tail, encodeUtf8 rest = fieldSection fields tail ∧
        SoundFields (fields.map spell) ∧ parsed.headers.names = fields.map fieldKey ∧
        (cutAround headerEnd (encodeUtf8 ("GET ".toList ++ line ++ lineBreak ++ rest))).2 =
          tail := by
  obtain ⟨fields, tail, whole, wellFormed, sound, names, after⟩ := parseRequest_eq_ok accepted
  have missing : ¬ [cr, lf] <:+: encodeUtf8 ("GET ".toList ++ line) :=
    not_lineBreak_infix_encodeUtf8 (by decide) oneLine
  have missingToo : ¬ [cr, lf] <:+: latin1Bytes (requestLine parsed) := by
    intro inside
    exact wellFormed.cr_notMem_requestLine (inside.mem List.mem_cons_self)
  have shape : requestBytes (latin1Bytes (requestLine parsed)) fields tail =
      latin1Bytes (requestLine parsed) ++ cr :: lf :: fieldSection fields tail := by
    rw [requestBytes, List.append_assoc]
    rfl
  rw [encodeUtf8_lineBreak, shape] at whole
  obtain ⟨sameLine, sameRest⟩ := append_pair_inj (by decide) missing missingToo whole
  have read : "GET ".toList ++ line = requestLine parsed :=
    eq_of_encodeUtf8 wellFormed.small_requestLine sameLine
  have words : "GET".toList ++ ' ' :: line =
      parsed.method ++ ' ' :: (parsed.target ++ ' ' :: parsed.version) := by
    refine read.trans ?_
    simp [requestLine]
  obtain ⟨method, others⟩ := append_delimiter_inj (by decide)
    (notMem_of_token wellFormed.method (by decide)) words
  exact ⟨method.symm, others, ⟨wellFormed.slash, wellFormed.target⟩, wellFormed.version, fields, tail,
    sameRest, sound, names, after⟩

/-- A target, a version and header lines are accepted. -/
theorem parseRequest_of_get {target version : Text} (isTarget : TargetText target)
    (supported : version ∈ supportedVersions) (block : HeaderBlock rest) :
    ∃ parsed, parseRequest (encodeUtf8
      ("GET ".toList ++ (target ++ ' ' :: version) ++ lineBreak ++ rest)) = .ok parsed := by
  obtain ⟨fields, tail, whole, sound⟩ := block
  have token : isToken "GET".toList = true := by decide
  have wellFormed : WellFormed ⟨"GET".toList, target, version, []⟩ :=
    ⟨token, isTarget.slash, isTarget.printable, supported, by simp, List.Pairwise.nil, by simp⟩
  have line : "GET ".toList ++ (target ++ ' ' :: version) =
      requestLine ⟨"GET".toList, target, version, []⟩ := by
    simp [requestLine]
  have encoded : encodeUtf8 (requestLine ⟨"GET".toList, target, version, []⟩) =
      latin1Bytes (requestLine ⟨"GET".toList, target, version, []⟩) :=
    encodeUtf8_of_small wellFormed.small_requestLine
  obtain ⟨parsed, accepted⟩ := parseRequest_requestBytes wellFormed sound tail
  refine ⟨parsed, ?_⟩
  rw [encodeUtf8_lineBreak, line, encoded, whole, ← accepted, requestBytes, List.append_assoc]
  rfl

end FirstLine

/-! ## The header of the client -/

section HostLine

variable {authority : Text} {fields : List RawField} {tail : Bytes}
  (sound : SoundFields (fields.map spell))
  (whole : encodeUtf8 ("Host: ".toList ++ authority ++ "\r\n\r\n".toList) =
    fieldSection fields tail)

theorem encodeUtf8_hostLine (authority : Text) :
    encodeUtf8 ("Host: ".toList ++ authority ++ "\r\n\r\n".toList) =
      encodeUtf8 ("Host: ".toList ++ authority) ++ cr :: lf :: [cr, lf] := by
  rw [encodeUtf8_append]
  rfl

/-- The name of the line is `host`. -/
theorem headerName_hostLine (authority : Text) :
    headerName (encodeUtf8 ("Host: ".toList ++ authority)) = "host".toList := by
  have shape : encodeUtf8 ("Host: ".toList ++ authority) =
      ascii "Host" ++ 58 :: (32 :: encodeUtf8 authority) := by
    rw [encodeUtf8_append]
    rfl
  have cut : cutAround (ascii ":") (encodeUtf8 ("Host: ".toList ++ authority)) =
      (ascii "Host", 32 :: encodeUtf8 authority) := by
    rw [shape]
    exact cutAround_singleton (by decide) _
  have folded : casefold (decodeLatin1 (ascii "Host")) = "host".toList := by decide
  rw [headerName, cut, folded]

include sound whole

/-- Without a line break in the authority, it is the only field, and nothing follows. -/
theorem fields_of_hostLine (oneLine : ¬ lineBreak <:+: authority) :
    fields.map fieldKey = ["host".toList] ∧ tail = [] := by
  have missing : ¬ [cr, lf] <:+: encodeUtf8 ("Host: ".toList ++ authority) :=
    not_lineBreak_infix_encodeUtf8 (by decide) oneLine
  rw [encodeUtf8_hostLine] at whole
  cases fields with
  | nil =>
      rw [encodeUtf8_append] at whole
      exact absurd (List.cons.inj whole).1 (by decide)
  | cons field fields =>
      have soundField := sound.each _ List.mem_cons_self
      have missingToo : ¬ [cr, lf] <:+: fieldBytes field := by
        intro inside
        exact cr_notMem_fieldBytes soundField (inside.mem List.mem_cons_self)
      have shape : fieldSection (field :: fields) tail =
          fieldBytes field ++ cr :: lf :: fieldSection fields tail := by
        rw [fieldSection_cons, List.append_assoc]
        rfl
      rw [shape] at whole
      obtain ⟨line, rest⟩ := append_pair_inj (by decide) missing missingToo whole
      have nothing : fields = [] ∧ tail = [] := by
        have size := congrArg List.length rest
        simp only [fieldSection, List.length_append, List.length_cons, List.length_nil] at size
        cases fields with
        | nil => exact ⟨rfl, List.length_eq_zero_iff.mp (by simpa using size)⟩
        | cons other fields =>
            simp at size
            omega
      obtain ⟨rfl, rfl⟩ := nothing
      refine ⟨?_, rfl⟩
      rw [List.map_singleton, ← headerName_fieldBytes soundField, ← line, headerName_hostLine]

/-- Where one field is read and nothing follows, the authority has no line break. -/
theorem oneLine_of_fields (names : fields.map fieldKey = ["host".toList]) (nothing : tail = []) :
    ¬ lineBreak <:+: authority := by
  obtain ⟨field, rfl, -⟩ := List.map_eq_singleton_iff.mp names
  rw [encodeUtf8_hostLine, nothing, fieldSection_cons, List.append_assoc] at whole
  have line : encodeUtf8 ("Host: ".toList ++ authority) = fieldBytes field :=
    List.append_cancel_right whole
  intro inside
  have among : [cr, lf] <:+: encodeUtf8 ("Host: ".toList ++ authority) :=
    lineBreak_infix_encodeUtf8_iff.mpr (List.infix_append_of_infix_right inside)
  rw [line] at among
  exact cr_notMem_fieldBytes (sound.each _ List.mem_cons_self) (among.mem List.mem_cons_self)

end HostLine

/-! ## The request of an address -/

section Requests

variable {url : URL} {parsed : ParsedRequest}

/-- The first line break of a text. -/
theorem exists_first_lineBreak {text : Text} (broken : lineBreak <:+: text) :
    ∃ line more, text = line ++ lineBreak ++ more ∧ ¬ lineBreak <:+: line := by
  obtain ⟨index, found⟩ := Option.ne_none_iff_exists'.mp
    (mt indexOf_eq_none_iff.mp (not_not.mpr broken))
  exact ⟨_, _, (take_append_drop_of_found found).symm, not_infix_take (by decide) found⟩

/-- A request after the line that the client means. -/
theorem request_eq (url : URL) :
    url.request = encodeUtf8 ("GET ".toList ++ (url.path ++ ' ' :: "HTTP/1.0".toList) ++
      lineBreak ++ ("Host: ".toList ++ url.hostHeader ++ "\r\n\r\n".toList)) := by
  have line : " HTTP/1.0\r\n".toList = ' ' :: "HTTP/1.0".toList ++ lineBreak := by decide
  have ends : "\r\n".toList ++ "\r\n".toList = "\r\n\r\n".toList := by decide
  rw [URL.request, line, ← ends]
  simp only [List.append_assoc]

/-- A request after the first line of the path. -/
theorem request_eq_of_path {line more : Text} (path : url.path = line ++ lineBreak ++ more) :
    url.request = encodeUtf8 ("GET ".toList ++ line ++ lineBreak ++
      (more ++ " HTTP/1.0\r\nHost: ".toList ++ url.hostHeader ++ "\r\n\r\n".toList)) := by
  have middle : " HTTP/1.0\r\nHost: ".toList = " HTTP/1.0\r\n".toList ++ "Host: ".toList := by
    decide
  have ends : "\r\n\r\n".toList = "\r\n".toList ++ "\r\n".toList := by decide
  rw [URL.request, path, middle, ends]
  simp only [List.append_assoc]

/-- A version has no space, so the line of the client is cut in one way. -/
theorem path_eq_target {path target version : Text} (supported : version ∈ supportedVersions)
    (same : path ++ ' ' :: "HTTP/1.0".toList = target ++ ' ' :: version) :
    path = target ∧ version = "HTTP/1.0".toList := by
  have noSpace : ' ' ∉ version := fun member => (version_char supported _ member).2.1 rfl
  obtain ⟨isTarget, isVersion⟩ := append_lastDelimiter_inj (by decide) noSpace same
  exact ⟨isTarget, isVersion.symm⟩

/-- **What is read of the line that was meant** is the whole request, when the authority has no
line break. Otherwise the authority splits the request. -/
theorem readsWhole_of_path (oneLine : ¬ lineBreak <:+: url.path)
    (accepted : parseRequest url.request = .ok parsed) :
    ReadsWhole url parsed ∨ AuthoritySplits url.hostHeader url.path := by
  have meant : ¬ lineBreak <:+: url.path ++ ' ' :: "HTTP/1.0".toList :=
    not_pair_infix_append oneLine (by decide) (.inr (by decide))
  rw [request_eq] at accepted
  obtain ⟨method, line, isTarget, supported, fields, tail, whole, sound, names, after⟩ :=
    parseRequest_get meant accepted
  obtain ⟨isPath, version⟩ := path_eq_target supported line
  by_cases broken : lineBreak <:+: url.hostHeader
  · rw [← isPath] at isTarget
    exact .inr ⟨isTarget, broken, fields, tail, whole, sound⟩
  · obtain ⟨host, nothing⟩ := fields_of_hostLine sound whole broken
    refine .inl ⟨method, isPath.symm, version, names.trans host, ?_⟩
    rw [request_eq, after, nothing]

/-- A path with a line break splits each request that is accepted. -/
theorem pathSplits_of_accepted (broken : lineBreak <:+: url.path)
    (accepted : parseRequest url.request = .ok parsed) : PathSplits url.hostHeader url.path := by
  obtain ⟨line, more, path, oneLine⟩ := exists_first_lineBreak broken
  rw [request_eq_of_path path] at accepted
  obtain ⟨-, isLine, isTarget, supported, fields, tail, whole, sound, -, -⟩ :=
    parseRequest_get oneLine accepted
  refine ⟨parsed.target, parsed.version, more, ?_, isTarget, supported, fields, tail, whole, sound⟩
  rw [path, isLine]
  simp

/-- A path that splits the request makes one that is accepted, whose target is not the path. -/
theorem PathSplits.misread (splits : PathSplits url.hostHeader url.path) :
    ∃ parsed, parseRequest url.request = .ok parsed ∧ ¬ ReadsWhole url parsed := by
  obtain ⟨target, version, more, path, isTarget, supported, block⟩ := splits
  have same : url.path = (target ++ ' ' :: version) ++ lineBreak ++ more := by simp [path]
  obtain ⟨parsed, accepted⟩ := parseRequest_of_get isTarget supported block
  rw [← request_eq_of_path same] at accepted
  refine ⟨parsed, accepted, fun whole => ?_⟩
  obtain ⟨fields, tail, -, wellFormed, -⟩ := parseRequest_eq_ok accepted
  have member : '\r' ∈ parsed.target := by
    rw [whole.target, same]
    simp
  exact wellFormed.notMem_target (by decide) member

/-- An authority that splits the request makes one that is accepted, with other headers or with
something after them. -/
theorem AuthoritySplits.misread (splits : AuthoritySplits url.hostHeader url.path) :
    ∃ parsed, parseRequest url.request = .ok parsed ∧ ¬ ReadsWhole url parsed := by
  obtain ⟨isTarget, broken, block⟩ := splits
  have meant : ¬ lineBreak <:+: url.path ++ ' ' :: "HTTP/1.0".toList := by
    refine not_pair_infix_append (fun inside => ?_) (by decide) (.inr (by decide))
    exact absurd (isTarget.printable '\r' (inside.mem List.mem_cons_self)) (by decide)
  obtain ⟨parsed, accepted⟩ :=
    parseRequest_of_get isTarget (show "HTTP/1.0".toList ∈ supportedVersions by decide) block
  obtain ⟨-, -, -, -, fields, tail, isBlock, sound, names, after⟩ := parseRequest_get meant accepted
  rw [← request_eq] at accepted after
  refine ⟨parsed, accepted, fun whole => ?_⟩
  have nothing := whole.nothing
  rw [after] at nothing
  exact oneLine_of_fields sound isBlock (names.symm.trans whole.headers) nothing broken

end Requests

/-- **When requests are not split.** For an address that the client accepts, every request that
the server accepts was read as it was meant, iff the address does not split its request. -/
theorem request_whole_iff (decimalOf : Char → Option (Fin 10)) (address : Text) (url : URL)
    (accepted : URL.init decimalOf address = .ok url) :
    (∀ parsed, parseRequest url.request = .ok parsed → ReadsWhole url parsed) ↔
      ¬ Splits address := by
  constructor
  · rintro whole ⟨authority, path, parts, splits⟩
    obtain ⟨rfl, rfl⟩ := parts.eq_of_init accepted
    have misread : ∃ parsed, parseRequest url.request = .ok parsed ∧ ¬ ReadsWhole url parsed := by
      rcases splits with pathSplits | authoritySplits
      · exact pathSplits.misread
      · exact authoritySplits.misread
    obtain ⟨parsed, isParsed, other⟩ := misread
    exact other (whole parsed isParsed)
  · intro whole parsed isParsed
    have parts := addressParts_of_init accepted
    by_cases broken : lineBreak <:+: url.path
    · exact absurd ⟨_, _, parts, .inl (pathSplits_of_accepted broken isParsed)⟩ whole
    · rcases readsWhole_of_path broken isParsed with readsWhole | splits
      · exact readsWhole
      · exact absurd ⟨_, _, parts, .inr splits⟩ whole

/-- The address of the tests. -/
def helloAddress : Text := "localhost:8088/hello".toList

def helloURL : URL :=
  ⟨"http".toList, "localhost".toList, 8088, "/hello".toList, "localhost:8088".toList⟩

theorem init_helloAddress : URL.init (fun _ => none) helloAddress = .ok helloURL := by
  have shape : helloAddress =
      "localhost".toList ++ ':' :: decimalText 8088 ++ '/' :: "hello".toList := by decide
  rw [init_bare (by decide), shape, ofRest_port (by decide) (by decide) (by decide) (by decide)]
  decide

/-- It is accepted, and read as it was meant. -/
theorem request_whole_hello :
    ∃ parsed, parseRequest helloURL.request = .ok parsed ∧ ReadsWhole helloURL parsed := by
  have block : HeaderBlock ("Host: ".toList ++ helloURL.hostHeader ++ "\r\n\r\n".toList) := by
    refine ⟨[(ascii "Host", ascii " localhost:8088")], [], by decide, ⟨?_, ?_⟩⟩
    · intro field member
      rw [List.mem_singleton.mp member]
      exact ⟨by decide, List.all_eq_true.mp (by decide), List.all_iff_forall_prop.mp (by decide)⟩
    · exact List.pairwise_singleton _ _
  have isTarget : TargetText helloURL.path :=
    ⟨by decide, List.all_iff_forall_prop.mp (by decide)⟩
  obtain ⟨parsed, accepted⟩ :=
    parseRequest_of_get isTarget (show "HTTP/1.0".toList ∈ supportedVersions by decide) block
  rw [← request_eq] at accepted
  exact ⟨parsed, accepted, (request_whole_iff (fun _ => none) helloAddress helloURL
    init_helloAddress).mpr (not_splits_of_oneLine (by decide)) parsed accepted⟩

/-- An address whose path ends the request line and starts a header. -/
def injectingAddress : Text := "localhost:8088/hello HTTP/1.0\r\nX-Injected:".toList

def injectingURL : URL :=
  ⟨"http".toList, "localhost".toList, 8088, "/hello HTTP/1.0\r\nX-Injected:".toList,
    "localhost:8088".toList⟩

/-- **An address injects a header.** The client accepts it, and the server reads another target than
its path and a header that the client never writes. -/
theorem address_injects_header :
    URL.init (fun _ => none) injectingAddress = .ok injectingURL ∧
      parseRequest injectingURL.request =
        .ok { method := "GET".toList
              target := "/hello".toList
              version := "HTTP/1.0".toList
              headers := [("x-injected".toList, "HTTP/1.0".toList),
                ("host".toList, "localhost:8088".toList)] } ∧
      injectingURL.path ≠ "/hello".toList := by
  have shape : injectingAddress = "localhost".toList ++ ':' :: decimalText 8088 ++
      '/' :: "hello HTTP/1.0\r\nX-Injected:".toList := by decide
  have sent : injectingURL.request = [cr, lf].intercalate
      [latin1Bytes (requestLine ⟨"GET".toList, "/hello".toList, "HTTP/1.0".toList, []⟩),
        ascii "X-Injected: HTTP/1.0", ascii "Host: localhost:8088"] ++ (headerEnd ++ []) := by
    decide
  have wellFormed : WellFormed ⟨"GET".toList, "/hello".toList, "HTTP/1.0".toList, []⟩ :=
    ⟨by decide, by decide, List.all_iff_forall_prop.mp (by decide), by decide, by simp,
      List.Pairwise.nil, by simp⟩
  refine ⟨?_, ?_, by decide⟩
  · rw [init_bare (by decide), shape, ofRest_port (by decide) (by decide) (by decide) (by decide)]
    decide
  · rw [sent, parseRequest_lines (List.all_iff_forall_prop.mp (by decide)),
      parseRequestLine_requestLine wellFormed]
    decide

end InfraFromScratch.Stack
