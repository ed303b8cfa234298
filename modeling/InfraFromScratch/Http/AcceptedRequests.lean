import InfraFromScratch.Http.HeaderSoundness
import InfraFromScratch.Http.RequestRoundTrip

/-!
# What an accepted request looks like

The inverse of the round trip: from the request that `parse_request` accepts, back to its bytes.
They are a well formed request line, one line for each header, an empty line, and any bytes after
it (`parseRequest_eq_ok`). All bytes of this form are accepted (`parseRequest_requestBytes`).

Nothing in the lines contains a carriage return, so an empty line that is not the end of the
headers cannot be hidden in them.
-/

set_option autoImplicit false

namespace InfraFromScratch.Http

open Foundations Gateway

namespace Server

/-- The bytes of a request line, header lines, an empty line and what follows. -/
def requestBytes (line : Bytes) (fields : List RawField) (tail : Bytes) : Bytes :=
  line ++ [cr, lf] ++ Client.fieldSection fields tail

/-- The request line of a request, alone. -/
def ParsedRequest.bare (request : ParsedRequest) : ParsedRequest := { request with headers := [] }

/-! ## The request line -/

/-- **An accepted request line** is the line of well formed parts. -/
theorem parseRequestLine_eq_ok {line : Bytes} {method target version : Text}
    (accepted : parseRequestLine line = .ok (method, target, version)) :
    WellFormed ⟨method, target, version, []⟩ ∧
      line = latin1Bytes (requestLine ⟨method, target, version, []⟩) := by
  unfold parseRequestLine at accepted
  split at accepted
  · rename_i one two three pieces
    split at accepted
    · cases accepted
    · rename_i checks
      simp only [Except.ok.injEq, Prod.mk.injEq] at accepted
      obtain ⟨rfl, rfl, rfl⟩ := accepted
      simp only [not_or, not_not] at checks
      obtain ⟨token, slash, printable, supported⟩ := checks
      obtain ⟨text, decoded, split⟩ := Option.map_eq_some_iff.mp pieces
      obtain ⟨isText, small⟩ := decodeAscii_eq_some decoded
      have written : text = requestLine ⟨one, two, three, []⟩ := by
        have joined := intercalate_splitAround (List.cons_ne_nil ' ' []) text
        rw [split] at joined
        rw [← joined]
        simp [requestLine, List.intercalate]
      refine ⟨⟨token, slash, ?_, supported, by simp, List.Pairwise.nil, by simp⟩, ?_⟩
      · intro character member
        have inText : character ∈ text := by
          rw [written, requestLine]
          simp [member]
        have noSpace : character.toNat ≠ 32 := by
          intro isSpace
          obtain rfl : character = ' ' := Char.toNat_inj.mp isSpace
          have isPiece : two ∈ splitAround [' '] text := by simp [split]
          exact notMem_of_mem_splitAround isPiece member
        have noControl : ¬ (character.toNat < 32 ∨ character.toNat = 127) := by
          intro control
          refine printable (List.any_eq_true.mpr ⟨character, member, ?_⟩)
          simpa using control
        have plain := small character inText
        omega
      · rw [← written, ← isText, latin1Bytes_decodeLatin1]
  · cases accepted

/-! ## The header block -/

/-- No line is empty at the end of the block: the end of the headers would have been found two
bytes earlier. -/
theorem not_emptyLine_of_found {request first : Bytes} {index : Nat}
    (found : indexOf headerEnd request = some index) :
    request.take index ≠ first ++ [cr, lf] := by
  intro ended
  have whole := take_append_drop_of_found found
  have size := congrArg List.length ended
  have room := indexOf_add_length_le headerEnd_ne_nil found
  rw [List.length_take, List.length_append] at size
  have earlier : first.length < index := by
    have two : ([cr, lf] : Bytes).length = 2 := rfl
    omega
  refine (indexOf_eq_some_iff.mp found).2 first.length earlier ?_
  rw [← whole, ended, List.append_assoc, List.append_assoc, List.drop_left]
  exact ⟨[cr, lf] ++ request.drop (index + headerEnd.length), rfl⟩

/-- The lines of the block after the first are those that `parse_headers` splits. -/
theorem blockLines_tail {request : Bytes} {index : Nat}
    (found : indexOf headerEnd request = some index) :
    blockLines ([cr, lf].intercalate (splitAround [cr, lf] (request.take index)).tail) =
      (splitAround [cr, lf] (request.take index)).tail := by
  have joined := intercalate_splitAround (List.cons_ne_nil cr [lf]) (request.take index)
  cases lines : splitAround [cr, lf] (request.take index) with
  | nil => rfl
  | cons first others =>
      rw [List.tail_cons]
      by_cases last : others = []
      · rw [last]
        rfl
      · have again := splitAround_intercalate_tail (List.cons_ne_nil cr [lf])
          (show (splitAround [cr, lf] (request.take index)).tail ≠ [] by rw [lines]; exact last)
        rw [lines, List.tail_cons] at again
        rw [blockLines, if_neg, again]
        intro empty
        refine @not_emptyLine_of_found request first index found ?_
        rw [← joined, lines, List.intercalate_cons_of_ne_nil last, empty, List.append_nil]

theorem cr_notMem_fieldBytes {field : RawField} (sound : SoundField (spell field)) :
    cr ∉ fieldBytes field :=
  sound.notMem_fieldBytes (by decide) (by decide) (by decide)

theorem headerName_fieldBytes {field : RawField} (sound : SoundField (spell field)) :
    headerName (fieldBytes field) = fieldKey field := by
  have clean : 58 ∉ field.1 := sound.notMem_name (by decide)
  have cut : cutAround (ascii ":") (fieldBytes field) = field := by
    rw [fieldBytes, List.append_assoc]
    exact cutAround_singleton clean field.2
  rw [headerName, cut, sound.casefold_eq]

/-- A request is its block and what follows the end of the headers. -/
theorem requestBytes_eq (line : Bytes) (fields : List RawField) (tail : Bytes) :
    requestBytes line fields tail =
      [cr, lf].intercalate (line :: fields.map fieldBytes) ++ (headerEnd ++ tail) := by
  have joined :=
    intercalate_append_separator [cr, lf] (List.cons_ne_nil line (fields.map fieldBytes))
  have twice : headerEnd ++ tail = [cr, lf] ++ ([cr, lf] ++ tail) := rfl
  rw [twice, ← List.append_assoc, joined, requestBytes, Client.fieldSection, List.map_cons,
    List.flatten_cons, List.map_map]
  simp only [List.append_assoc]
  rfl

/-! ## Requests -/

/-- **An accepted request** is a well formed request line and sound fields, once the names are
spelled out, under whose names the values are stored. -/
theorem parseRequest_eq_ok {request : Bytes} {parsed : ParsedRequest}
    (accepted : parseRequest request = .ok parsed) :
    ∃ fields tail,
      request = requestBytes (latin1Bytes (requestLine parsed)) fields tail ∧
        WellFormed parsed.bare ∧ SoundFields (fields.map spell) ∧
        parsed.headers.names = fields.map fieldKey ∧ (cutAround headerEnd request).2 = tail := by
  obtain ⟨index, found, line, block⟩ := parseRequest_ok accepted
  obtain ⟨wellFormed, isLine⟩ := parseRequestLine_eq_ok line
  obtain ⟨fields, lines, sound⟩ := (parseHeaders_ok_iff _).mp ⟨parsed.headers, block⟩
  have named : parsed.headers.names = (blockLines _).map headerName :=
    (foldlM_parseHeader_ok block).2
  rw [blockLines_tail found] at lines named
  refine ⟨fields, request.drop (index + headerEnd.length), ?_, wellFormed, sound, ?_, ?_⟩
  · have split : splitAround [cr, lf] (request.take index) =
        latin1Bytes (requestLine parsed) :: fields.map fieldBytes := by
      have isHead : (splitAround [cr, lf] (request.take index)).headD [] =
          latin1Bytes (requestLine parsed) := isLine
      obtain ⟨first, others, cons⟩ :=
        List.exists_cons_of_ne_nil (splitAround_ne_nil [cr, lf] (request.take index))
      rw [cons, List.headD_cons] at isHead
      rw [cons, List.tail_cons] at lines
      rw [cons, isHead, lines]
    have joined := intercalate_splitAround (List.cons_ne_nil cr [lf]) (request.take index)
    rw [split] at joined
    rw [requestBytes_eq, joined, ← List.append_assoc]
    exact (take_append_drop_of_found found).symm
  · rw [named, lines, List.map_map]
    refine List.map_congr_left fun field member => ?_
    exact headerName_fieldBytes (sound.each _ (List.mem_map_of_mem member))
  · rw [cutAround, found]

/-- **All such bytes are accepted.** -/
theorem parseRequest_requestBytes {request : ParsedRequest} (wellFormed : WellFormed request)
    {fields : List RawField} (sound : SoundFields (fields.map spell)) (tail : Bytes) :
    ∃ parsed,
      parseRequest (requestBytes (latin1Bytes (requestLine request)) fields tail) = .ok parsed := by
  have clean : ∀ line ∈ latin1Bytes (requestLine request) :: fields.map fieldBytes,
      line ≠ [] ∧ cr ∉ line := by
    refine List.forall_mem_cons.mpr ⟨⟨?_, wellFormed.cr_notMem_requestLine⟩, ?_⟩
    · simp [latin1Bytes, requestLine]
    · intro line member
      obtain ⟨field, isField, rfl⟩ := List.mem_map.mp member
      exact ⟨Client.fieldBytes_ne_nil field,
        cr_notMem_fieldBytes (sound.each _ (List.mem_map_of_mem isField))⟩
  obtain ⟨headers, accepted⟩ := (@foldlM_parseHeader_ok_iff (fields.map fieldBytes) []).mpr
    ⟨fields, rfl, sound, fun _ _ => List.not_mem_nil⟩
  rw [requestBytes_eq, parseRequest_lines clean, parseRequestLine_requestLine wellFormed, accepted]
  exact ⟨_, rfl⟩

end Server

end InfraFromScratch.Http
