import InfraFromScratch.Foundations.Words
import InfraFromScratch.Http.Requests

/-!
# Who refuses a request with a body

The load balancer and the reverse proxy refuse a request whose headers frame a body, and so
does the HTTP server behind them. The programs in Go compare names as UTF-8 text in lower
case and without white space around it; the server reads Latin-1, folds case and demands a
token. On requests that the server can parse the two agree (`hasUnsupportedBody_iff`).

A name that the server accepts consists of ASCII bytes that are no white space, and of sharp
s bytes. These fold to two letters s, while in Go they are no UTF-8 and become the
replacement rune: on neither side such a name frames a body.
-/

set_option autoImplicit false

namespace InfraFromScratch.Stack

open Foundations Gateway Http Http.Server

/-- A byte of a name that the HTTP server accepts: ASCII and no white space, or the sharp s. -/
def NameByte (byte : UInt8) : Prop :=
  (byte.toNat < 0x80 ∧ isUnicodeSpace (asciiLower byte).toNat = false) ∨ byte = sharpS

instance (byte : UInt8) : Decidable (NameByte byte) := inferInstanceAs (Decidable (_ ∨ _))

/-- The bytes of a token, before case was folded. -/
theorem nameByte_of_token {raw : Bytes} (token : isToken (casefold (decodeLatin1 raw)) = true) :
    ∀ byte ∈ raw, NameByte byte := by
  have each : ∀ byte : UInt8,
      (casefoldChar (latin1Char byte)).all (fun character => isTokenChar character &&
        character.toNat < 128) = true → NameByte byte := forall_byte (by decide +kernel)
  intro byte member
  apply each
  simp only [isToken, isAscii, Bool.and_eq_true, List.all_eq_true, decide_eq_true_eq] at token
  rw [List.all_eq_true]
  intro character inside
  have among : character ∈ casefold (decodeLatin1 raw) :=
    List.mem_flatMap.mpr ⟨latin1Char byte, List.mem_map_of_mem member, inside⟩
  rw [Bool.and_eq_true, decide_eq_true_eq]
  exact ⟨token.2 character among, token.1.2 character among⟩

/-! ## The name as Go sees it -/

/-- What `bytes.ToLower` makes of one byte of a name. -/
def goLower (byte : UInt8) : Bytes := if byte.toNat < 0x80 then [asciiLower byte] else replacement

theorem asciiLower_lt {byte : UInt8} (small : byte.toNat < 0x80) : (asciiLower byte).toNat < 0x80 := by
  rw [asciiLower_toNat]
  split <;> omega

/-- Each byte of a name is one rune. -/
theorem runes_of_name {raw : Bytes} (name : ∀ byte ∈ raw, NameByte byte) :
    runes raw =
      raw.map fun byte => (if byte.toNat < 0x80 then byte.toNat else runeError, [byte]) := by
  induction raw with
  | nil => rw [runes, List.map_nil]
  | cons byte rest ih =>
      have others := fun other member => name other (List.mem_cons_of_mem byte member)
      rw [List.map_cons, ← ih others]
      rcases name byte List.mem_cons_self with ⟨small, -⟩ | rfl
      · rw [if_pos small, runes_of_ascii small]
      · refine runes_of_unfinished (by decide) ?_
        intro second isSecond
        have continues : ∀ byte : UInt8, NameByte byte → isContinuation byte = false :=
          forall_byte (by decide +kernel)
        exact continues second (others second (List.mem_of_mem_head? isSecond))

theorem encodeRune_runeLower (tables : UnicodeTables) {byte : UInt8} (small : byte.toNat < 0x80) :
    encodeRune (runeLower tables byte.toNat) = [asciiLower byte] := by
  rw [runeLower, if_pos small, ← asciiLower_toNat, encodeRune, if_pos (asciiLower_lt small),
    UInt8.ofNat_toNat]

/-- The lower case of a name, given that the replacement rune has no other. -/
theorem toLower_of_name {tables : UnicodeTables} (kept : tables.toLower runeError = runeError)
    {raw : Bytes} (name : ∀ byte ∈ raw, NameByte byte) :
    toLower tables raw = raw.flatMap goLower := by
  unfold toLower
  split
  · rename_i small
    rw [List.all_eq_true] at small
    rw [List.map_eq_flatMap]
    apply List.flatMap_congr
    intro byte member
    rw [goLower, if_pos (of_decide_eq_true (small byte member))]
  · rw [runes_of_name name, List.flatMap_map]
    apply List.flatMap_congr
    intro byte member
    by_cases small : byte.toNat < 0x80
    · rw [if_pos small, goLower, if_pos small]
      exact encodeRune_runeLower tables small
    · have large : ¬ runeError < 0x80 := by decide
      rw [if_neg small, goLower, if_neg small]
      show encodeRune (runeLower tables runeError) = replacement
      rw [runeLower, if_neg large, kept, replacement]

/-- The runes of a name in lower case. -/
theorem runes_of_goLower {raw : Bytes} (name : ∀ byte ∈ raw, NameByte byte) :
    runes (raw.flatMap goLower) =
      raw.map fun byte =>
        (if byte.toNat < 0x80 then (asciiLower byte).toNat else runeError, goLower byte) := by
  induction raw with
  | nil => rw [List.flatMap_nil, runes, List.map_nil]
  | cons byte rest ih =>
      rw [List.flatMap_cons, List.map_cons,
        ← ih fun other member => name other (List.mem_cons_of_mem byte member)]
      by_cases small : byte.toNat < 0x80
      · rw [if_pos small, goLower, if_pos small, List.singleton_append,
          runes_of_ascii (asciiLower_lt small)]
      · rw [if_neg small, goLower, if_neg small, runes_of_replacement]

/-- The key of a name in Go. -/
theorem trimSpace_toLower_of_name {tables : UnicodeTables}
    (kept : tables.toLower runeError = runeError) {raw : Bytes}
    (name : ∀ byte ∈ raw, NameByte byte) :
    trimSpace (toLower tables raw) = raw.flatMap goLower := by
  rw [toLower_of_name kept name]
  apply trimSpace_of_solid
  intro rune isRune
  rw [runes_of_goLower name, List.mem_map] at isRune
  obtain ⟨byte, member, rfl⟩ := isRune
  rcases name byte member with ⟨small, solid⟩ | rfl
  · dsimp only
    rw [if_pos small]
    exact solid
  · decide

/-! ## The two keys -/

/-- Without the sharp s the server's key is the text of the key in Go. -/
theorem casefold_of_ascii {raw : Bytes} (small : ∀ byte ∈ raw, byte.toNat < 0x80) :
    casefold (decodeLatin1 raw) = decodeLatin1 (raw.flatMap goLower) := by
  have each : ∀ byte : UInt8, byte.toNat < 0x80 →
      casefoldChar (latin1Char byte) = decodeLatin1 (goLower byte) :=
    forall_byte (by decide +kernel)
  rw [casefold_decodeLatin1, decodeLatin1, List.map_flatMap]
  apply List.flatMap_congr
  intro byte member
  exact each byte (small byte member)

theorem bodyHeaders_eq : bodyHeaders = unsupportedBodyHeaders.map decodeLatin1 := by decide

/-- A name with a sharp s frames no body, in Go or in the server. -/
theorem not_frames_of_sharpS {raw : Bytes} (sharp : sharpS ∈ raw) :
    raw.flatMap goLower ∉ unsupportedBodyHeaders ∧
      casefold (decodeLatin1 raw) ∉ bodyHeaders := by
  have replaced : (0xEF : UInt8) ∈ raw.flatMap goLower :=
    List.mem_flatMap.mpr ⟨sharpS, sharp, by decide⟩
  have twice : 2 ≤ (casefold (decodeLatin1 raw)).count 's' := by
    obtain ⟨front, back, rfl⟩ := List.append_of_mem sharp
    have split : casefold (decodeLatin1 (front ++ sharpS :: back)) =
        casefold (decodeLatin1 front) ++ ['s', 's'] ++ casefold (decodeLatin1 back) := by
      simp only [casefold_decodeLatin1, List.flatMap_append, List.flatMap_cons, List.append_assoc]
      rfl
    rw [split, List.count_append, List.count_append]
    have two : (['s', 's'] : Text).count 's' = 2 := by decide
    omega
  refine ⟨?_, ?_⟩
  · intro framed
    have plain : ∀ header ∈ unsupportedBodyHeaders, (0xEF : UInt8) ∉ header := by decide
    exact plain _ framed replaced
  · intro framed
    have once : ∀ header ∈ bodyHeaders, header.count 's' < 2 := by decide
    exact absurd twice (Nat.not_le.mpr (once _ framed))

/-- The two programs agree on a name that the server accepts. -/
theorem frames_iff_of_name {tables : UnicodeTables} (kept : tables.toLower runeError = runeError)
    {raw : Bytes} (name : ∀ byte ∈ raw, NameByte byte) :
    trimSpace (toLower tables raw) ∈ unsupportedBodyHeaders ↔
      casefold (decodeLatin1 raw) ∈ bodyHeaders := by
  rw [trimSpace_toLower_of_name kept name]
  by_cases sharp : sharpS ∈ raw
  · have neither := not_frames_of_sharpS sharp
    exact ⟨fun framed => absurd framed neither.1, fun framed => absurd framed neither.2⟩
  · have small : ∀ byte ∈ raw, byte.toNat < 0x80 := by
      intro byte member
      rcases name byte member with ⟨small, -⟩ | rfl
      · exact small
      · exact absurd member sharp
    rw [casefold_of_ascii small, bodyHeaders_eq,
      List.mem_map_of_injective decodeLatin1_injective]

/-- The load balancer and the reverse proxy look at the same lines. -/
theorem hasUnsupportedBody_iff_line (tables : UnicodeTables) (request : Bytes) :
    hasUnsupportedBody tables request = true ↔
      ∃ line ∈ headerLines request,
        trimSpace (toLower tables (cutAround (ascii ":") line).1) ∈ unsupportedBodyHeaders := by
  simp [hasUnsupportedBody, headerLines]

/-- The filter in Go sees a body header iff the server has one. -/
theorem hasUnsupportedBody_iff_framesBody {tables : UnicodeTables}
    (kept : tables.toLower runeError = runeError) {request : Bytes} {parsed : ParsedRequest}
    (accepted : parseRequest request = .ok parsed) :
    hasUnsupportedBody tables request = true ↔ framesBody parsed.headers = true := by
  obtain ⟨tokens, names⟩ := parseRequest_names accepted
  have agree : ∀ line ∈ headerLines request, line ≠ [] →
      (trimSpace (toLower tables (cutAround (ascii ":") line).1) ∈ unsupportedBodyHeaders ↔
        headerName line ∈ bodyHeaders) := by
    intro line member nonempty
    exact frames_iff_of_name kept (nameByte_of_token (tokens line member nonempty))
  simp only [hasUnsupportedBody_iff_line, framesBody, List.any_eq_true, decide_eq_true_eq]
  constructor
  · rintro ⟨line, member, framed⟩
    have nonempty : line ≠ [] := by
      rintro rfl
      have empty : trimSpace (toLower tables []) = [] :=
        trimSpace_toLower_of_name kept fun byte member => (List.not_mem_nil member).elim
      rw [show (cutAround (ascii ":") []).1 = [] from rfl, empty] at framed
      revert framed
      decide
    refine ⟨headerName line, (names _).mpr ⟨line, member, nonempty, rfl⟩, ?_⟩
    exact (agree line member nonempty).mp framed
  · rintro ⟨name, isName, framed⟩
    obtain ⟨line, member, nonempty, rfl⟩ := (names name).mp isName
    exact ⟨line, member, (agree line member nonempty).mpr framed⟩

theorem framesBody_iff (headers : Headers) :
    framesBody headers = true ↔
      "content-length".toList ∈ headers.names ∨ "transfer-encoding".toList ∈ headers.names := by
  simp only [framesBody, List.any_eq_true, decide_eq_true_eq, bodyHeaders, List.mem_cons,
    List.not_mem_nil, or_false]
  constructor
  · rintro ⟨name, member, rfl | rfl⟩
    · exact .inl member
    · exact .inr member
  · rintro (member | member)
    · exact ⟨_, member, .inl rfl⟩
    · exact ⟨_, member, .inr rfl⟩

/-- A parsed request is refused iff its headers frame a body. -/
theorem admitRequest_eq_error_iff {request : Bytes} {parsed : ParsedRequest}
    (accepted : parseRequest request = .ok parsed) :
    admitRequest request = .error "request bodies are not supported" ↔
      framesBody parsed.headers = true := by
  simp only [admitRequest, accepted, bind, Except.bind]
  cases framesBody parsed.headers with
  | true => simp [throw, throwThe, MonadExceptOf.throw]
  | false => simp [pure, Except.pure]

/-- **The filters agree.** On a request that the HTTP server parses, `hasUnsupportedBody` is
true iff the headers contain a body header, and so iff `handle_connection` refuses the
request because of it. -/
theorem hasUnsupportedBody_iff {tables : UnicodeTables}
    (kept : tables.toLower runeError = runeError) {request : Bytes} {parsed : ParsedRequest}
    (accepted : parseRequest request = .ok parsed) :
    (hasUnsupportedBody tables request = true ↔
        "content-length".toList ∈ parsed.headers.names ∨
          "transfer-encoding".toList ∈ parsed.headers.names) ∧
      (hasUnsupportedBody tables request = true ↔
        admitRequest request = .error "request bodies are not supported") := by
  have same := hasUnsupportedBody_iff_framesBody kept accepted
  exact ⟨same.trans (framesBody_iff _), same.trans (admitRequest_eq_error_iff accepted).symm⟩

/-- A request with a length, and with a sharp s in another name. -/
def framedRequest : Bytes :=
  ascii "GET / HTTP/1.1\r\nStra" ++ [sharpS] ++ ascii "e: 1\r\nContent-LENGTH: 3\r\n\r\n"

/-- The headers of that request in the server. -/
def framedHeaders : Headers :=
  [("strasse".toList, "1".toList), ("content-length".toList, "3".toList)]

theorem parseRequest_framedRequest :
    parseRequest framedRequest =
      .ok ⟨"GET".toList, "/".toList, "HTTP/1.1".toList, framedHeaders⟩ := by
  decide +kernel

theorem hasUnsupportedBody_framedRequest :
    hasUnsupportedBody ⟨id, id⟩ framedRequest = true ∧
      admitRequest framedRequest = .error "request bodies are not supported" := by
  have agree := @hasUnsupportedBody_iff ⟨id, id⟩ rfl _ _ parseRequest_framedRequest
  have refused := agree.1.mpr (.inl (by decide))
  exact ⟨refused, agree.2.mp refused⟩

end InfraFromScratch.Stack
