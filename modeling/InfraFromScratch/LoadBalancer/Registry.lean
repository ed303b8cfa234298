import InfraFromScratch.Foundations.GoText
import InfraFromScratch.Foundations.Lines
import InfraFromScratch.Foundations.Numerals
import InfraFromScratch.LoadBalancer.Pool

/-!
# The registry of the load balancer

`registryHandler` in `load-balancer/server.go` reads the address of a backend from the body of a
PUT or DELETE. The body is trimmed and cut at its first colon, the port is read and written
again, and the host must be an IPv4 address. The pool compares addresses as strings.

The host is written back as it came, and the check of the host reads it through
`net.SplitHostPort`, which takes brackets off. So an address has two spellings, with brackets
around the host and without, and the registry accepts both (`registryAddress_eq_ok_iff`).
-/

set_option autoImplicit false

namespace InfraFromScratch.LoadBalancer

open Foundations

/-! ## Addresses -/

/-- `maxAddressSize`. -/
def maxAddressSize : Nat := 128

/-- The errors of `backendAddress` and `hostPort`. -/
inductive AddressError where
  /-- `backend must be HOST:PORT`, with the value. -/
  | notHostPort (value : Bytes)
  /-- `port must be between 1 and 65535`. -/
  | portOutOfRange
  deriving DecidableEq, Repr

/-- `net.JoinHostPort`. -/
def joinHostPort (host port : Bytes) : Bytes :=
  if 58 ∈ host then ascii "[" ++ host ++ ascii "]:" ++ port else host ++ ascii ":" ++ port

/-- `hostPort`. -/
def hostPort (host : Bytes) (port : Int) : Except AddressError Bytes :=
  if port < 1 ∨ 65535 < port then .error .portOutOfRange
  else .ok (joinHostPort host (itoa port))

/-- `backendAddress`. -/
def backendAddress (value : Bytes) : Except AddressError Bytes :=
  match cutAt 58 value with
  | none => .error (.notHostPort value)
  | some (host, rawPort) =>
      if host = [] ∨ rawPort = [] then .error (.notHostPort value)
      else
        match atoi rawPort with
        | none => .error (.notHostPort value)
        | some port => hostPort host port

/-- The errors of `net.SplitHostPort`. -/
inductive HostPortError where
  | missingPort
  | tooManyColons
  | missingClose
  | unexpectedOpen
  | unexpectedClose
  deriving DecidableEq, Repr

/-- The index of the last occurrence of a byte. -/
def lastIndexByte (byte : UInt8) (text : Bytes) : Option Nat :=
  (cutAtLast byte text).map fun parts => parts.1.length

/-- The end of `net.SplitHostPort`: from the given places on there may be no more brackets. -/
def refuseBrackets (hostport host : Bytes) (colon fromOpen fromClose : Nat) :
    Except HostPortError (Bytes × Bytes) :=
  if 91 ∈ hostport.drop fromOpen then .error .unexpectedOpen
  else if 93 ∈ hostport.drop fromClose then .error .unexpectedClose
  else .ok (host, hostport.drop (colon + 1))

/-- `net.SplitHostPort`. -/
def splitHostPort (hostport : Bytes) : Except HostPortError (Bytes × Bytes) :=
  match lastIndexByte 58 hostport with
  | none => .error .missingPort
  | some colon =>
      if hostport.head? = some 91 then
        match indexOf [93] hostport with
        | none => .error .missingClose
        | some close =>
            if close + 1 = hostport.length then .error .missingPort
            else if close + 1 = colon then
              refuseBrackets hostport ((hostport.take close).drop 1) colon 1 (close + 1)
            else if hostport[close + 1]? = some 58 then .error .tooManyColons
            else .error .missingPort
      else if 58 ∈ hostport.take colon then .error .tooManyColons
      else refuseBrackets hostport (hostport.take colon) colon 0 0

/-- The host that `SplitHostPort` returns. With an error it is empty. -/
def hostOf (address : Bytes) : Bytes :=
  match splitHostPort address with
  | .ok (host, _) => host
  | .error _ => []

/-- `net.ParseIP(host).To4()`. What it makes of a host with a colon is a parameter. -/
def parseIPTo4 (mapped : Bytes → Option IPv4) (host : Bytes) : Option IPv4 :=
  if 58 ∈ host then mapped host else dottedQuad host

/-! ## Requests -/

/-- What the handler reads of a request. The body may end in an error. -/
structure RegistryRequest where
  path : String
  method : String
  body : Bytes
  bodyFails : Bool
  deriving DecidableEq, Repr

structure RegistryReply where
  status : Nat
  body : String
  headers : List (String × String) := []
  deriving DecidableEq, Repr

/-- `http.Error`. -/
def httpError (message : String) (status : Nat) : RegistryReply :=
  { status, body := message ++ "\n" }

/-- `io.ReadAll(io.LimitReader(body, limit))`, or nothing with an error. -/
def readLimited (limit : Nat) (body : Bytes) (fails : Bool) : Option Bytes :=
  if fails ∧ body.length < limit then none else some (body.take limit)

/-- The address in the body of a PUT or DELETE, or the reply that refuses it. -/
def registryAddress (mapped : Bytes → Option IPv4) (request : RegistryRequest) :
    Except RegistryReply Bytes :=
  match readLimited (maxAddressSize + 1) request.body request.bodyFails with
  | none => .error (httpError "invalid backend address" 400)
  | some body =>
      if maxAddressSize < body.length then .error (httpError "invalid backend address" 400)
      else
        match backendAddress (trimSpace body) with
        | .error _ => .error (httpError "invalid backend address" 400)
        | .ok address =>
            match parseIPTo4 mapped (hostOf address) with
            | none => .error (httpError "backend address must use IPv4" 400)
            | some _ => .ok address

/-- A string of Go, with a character for each byte. -/
def goString (bytes : Bytes) : String := String.ofList (decodeLatin1 bytes)

/-- `registryHandler`, at the time at which it uses the pool. -/
def registryHandler (mapped : Bytes → Option IPv4) (now : Int) (pool : BackendPool)
    (request : RegistryRequest) : BackendPool × RegistryReply :=
  if request.path ≠ "/backends" then (pool, httpError "404 page not found" 404)
  else if request.method = "GET" then
    let (pruned, backends) := pool.snapshot now
    (pruned, { status := 200,
               body := String.join (backends.map fun backend =>
                 (pruned.heap backend).address ++ "\n") })
  else if request.method ≠ "PUT" ∧ request.method ≠ "DELETE" then
    (pool, { httpError "Method Not Allowed" 405 with headers := [("Allow", "GET, PUT, DELETE")] })
  else
    match registryAddress mapped request with
    | .error reply => (pool, reply)
    | .ok address =>
        if request.method = "PUT" then
          match pool.register now (goString address) with
          | (registered, some message) => (registered, httpError message 409)
          | (registered, none) => (registered, { status := 204, body := "" })
        else
          match pool.remove (goString address) with
          | (left, false) => (left, httpError "backend not found" 404)
          | (left, true) => (left, { status := 204, body := "" })

theorem goString_injective : Function.Injective goString := by
  intro one other same
  exact decodeLatin1_injective (String.ofList_injective same)

/-! ## What is accepted -/

/-- The two spellings of a host. -/
def hostText (bracketed : Bool) (address : IPv4) : Bytes :=
  if bracketed then ascii "[" ++ address.dotted ++ ascii "]" else address.dotted

/-- What a backend is dialled at. -/
structure Endpoint where
  address : IPv4
  port : Nat
  deriving DecidableEq, Repr

/-- The body names the endpoint, with brackets around its host or without. The port is read as
the number that its numeral denotes. -/
def Names (body : Bytes) (bracketed : Bool) (endpoint : Endpoint) : Prop :=
  ∃ numeral, trimSpace body = hostText bracketed endpoint.address ++ ascii ":" ++ numeral ∧
    atoi numeral = some (endpoint.port : Int)

/-- The address under which an endpoint is stored. -/
def storedAddress (bracketed : Bool) (endpoint : Endpoint) : Bytes :=
  hostText bracketed endpoint.address ++ ascii ":" ++ decimal endpoint.port

/-! ## The host of an address -/

section Host

variable {host inner digits : Bytes}

theorem lastIndexByte_append {byte : UInt8} {after : Bytes} (clean : byte ∉ after)
    (before : Bytes) : lastIndexByte byte (before ++ byte :: after) = some before.length := by
  rw [lastIndexByte, cutAtLast_append clean, Option.map_some]

/-- Without a bracket in front, the host is what stands before the colon, unless a bracket
stands elsewhere. -/
theorem hostOf_plain (noColon : 58 ∉ host) (noColonAfter : 58 ∉ digits)
    (noOpenAfter : 91 ∉ digits) (noCloseAfter : 93 ∉ digits)
    (plain : (host ++ 58 :: digits).head? ≠ some 91) :
    hostOf (host ++ 58 :: digits) = if 91 ∈ host ∨ 93 ∈ host then [] else host := by
  have colon := lastIndexByte_append noColonAfter host
  rw [hostOf, splitHostPort, colon]
  dsimp only
  rw [if_neg plain, List.take_left, if_neg noColon, refuseBrackets, List.drop_zero]
  by_cases opens : 91 ∈ host
  · simp [opens]
  · by_cases closes : 93 ∈ host
    · simp [opens, closes, noOpenAfter]
    · simp [opens, closes, noOpenAfter, noCloseAfter]

/-- Brackets around the whole host are taken off. -/
theorem hostOf_bracketed (noClose : 93 ∉ inner) (noColonAfter : 58 ∉ digits)
    (noOpenAfter : 91 ∉ digits) (noCloseAfter : 93 ∉ digits) :
    hostOf (91 :: inner ++ 93 :: 58 :: digits) = if 91 ∈ inner then [] else inner := by
  have colon : lastIndexByte 58 (91 :: inner ++ 93 :: 58 :: digits) = some (inner.length + 2) := by
    have shape : 91 :: inner ++ 93 :: 58 :: digits = (91 :: inner ++ [93]) ++ 58 :: digits := by
      simp
    rw [shape, lastIndexByte_append noColonAfter]
    simp
  have close : indexOf [93] (91 :: inner ++ 93 :: 58 :: digits) = some (inner.length + 1) := by
    have clean : 93 ∉ 91 :: inner := by simp [noClose]
    exact indexOf_of_clean clean [] (58 :: digits)
  have before : ((91 :: inner ++ 93 :: 58 :: digits).take (inner.length + 1)).drop 1 = inner := by
    simp
  have after : (91 :: inner ++ 93 :: 58 :: digits).drop (inner.length + 1 + 1) = 58 :: digits := by
    simp
  have more : inner.length + 1 + 1 ≠ (91 :: inner ++ 93 :: 58 :: digits).length := by
    simp
  rw [hostOf, splitHostPort, colon]
  dsimp only
  rw [if_pos (by simp), close]
  dsimp only
  rw [if_neg more, if_pos rfl, refuseBrackets, before, after]
  by_cases opens : 91 ∈ inner
  · simp [opens]
  · simp [opens, noOpenAfter, noCloseAfter]

/-- A bracket in front that is not closed before the colon is an error. -/
theorem hostOf_unclosed (noColonAfter : 58 ∉ digits) (noCloseAfter : 93 ∉ digits)
    (unclosed : 93 ∉ inner ∨ ∃ front byte rest, inner = front ++ 93 :: byte :: rest ∧ 93 ∉ front) :
    hostOf (91 :: inner ++ 58 :: digits) = [] := by
  have colon := lastIndexByte_append noColonAfter (91 :: inner)
  rw [hostOf, splitHostPort, colon]
  dsimp only
  rw [if_pos (by simp)]
  rcases unclosed with noClose | ⟨front, byte, rest, rfl, noClose⟩
  · have missing : indexOf [93] (91 :: inner ++ 58 :: digits) = none :=
      indexOf_missing_of_clean (by simp [noClose, noCloseAfter]) []
    rw [missing]
  · have close : indexOf [93] (91 :: (front ++ 93 :: byte :: rest) ++ 58 :: digits) =
        some (front.length + 1) := by
      have clean : 93 ∉ 91 :: front := by simp [noClose]
      have found := indexOf_of_clean clean [] (byte :: rest ++ 58 :: digits)
      simpa using found
    have early : front.length + 1 + 1 ≠ (91 :: (front ++ 93 :: byte :: rest)).length := by
      simp
    have inside : front.length + 1 + 1 ≠
        (91 :: (front ++ 93 :: byte :: rest) ++ 58 :: digits).length := by
      simp
    rw [close]
    dsimp only
    rw [if_neg inside, if_neg early]
    split
    · rename_i parsed
      split at parsed <;> cases parsed
    · rfl

theorem parseIPTo4_eq_some_iff {mapped : Bytes → Option IPv4} (noColon : 58 ∉ host)
    {address : IPv4} : parseIPTo4 mapped host = some address ↔ host = address.dotted := by
  rw [parseIPTo4, if_neg noColon, dottedQuad_eq_some_iff]

theorem open_notMem_dotted (address : IPv4) : 91 ∉ address.dotted :=
  notMem_dotted (by decide) (by decide) address

theorem close_notMem_dotted (address : IPv4) : 93 ∉ address.dotted :=
  notMem_dotted (by decide) (by decide) address

/-- A host that starts with a bracket spells an address when the rest is the dotted notation and
a closing bracket. -/
theorem exists_eq_hostText_open_iff {address : IPv4} :
    (∃ bracketed, 91 :: inner = hostText bracketed address) ↔
      cutAt 93 inner = some (address.dotted, []) := by
  rw [cutAt_eq_some_iff]
  constructor
  · rintro ⟨bracketed, spelled⟩
    cases bracketed with
    | true => exact ⟨(List.cons.inj spelled).2, close_notMem_dotted address⟩
    | false =>
        have opens : 91 ∈ hostText false address := spelled ▸ List.mem_cons_self
        exact absurd opens (open_notMem_dotted address)
  · rintro ⟨rfl, -⟩
    exact ⟨true, rfl⟩

/-- Any other host spells an address when it is the dotted notation. -/
theorem exists_eq_hostText_plain_iff (plain : host.head? ≠ some 91) {address : IPv4} :
    (∃ bracketed, host = hostText bracketed address) ↔ host = address.dotted := by
  constructor
  · rintro ⟨bracketed, rfl⟩
    cases bracketed with
    | true => exact absurd rfl plain
    | false => rfl
  · rintro rfl
    exact ⟨false, rfl⟩

/-- **The hosts that are accepted**: IPv4 addresses, in brackets or not. -/
theorem parseIPTo4_hostOf_iff (mapped : Bytes → Option IPv4) (noColon : 58 ∉ host)
    (areDigits : ∀ byte ∈ digits, isDecimalDigit byte = true) {address : IPv4} :
    parseIPTo4 mapped (hostOf (host ++ 58 :: digits)) = some address ↔
      ∃ bracketed, host = hostText bracketed address := by
  have outside : ∀ byte : UInt8, isDecimalDigit byte = false → byte ∉ digits := by
    intro byte noDigit member
    rw [areDigits byte member] at noDigit
    cases noDigit
  have colon := outside 58 (by decide)
  have opens := outside 91 (by decide)
  have closes := outside 93 (by decide)
  have nothing : parseIPTo4 mapped [] ≠ some address := fun found =>
    dotted_ne_nil address ((parseIPTo4_eq_some_iff List.not_mem_nil).mp found).symm
  by_cases bracket : host.head? = some 91
  · obtain ⟨inner, rfl⟩ : ∃ inner, host = 91 :: inner := by
      cases host with
      | nil => cases bracket
      | cons first inner => exact ⟨inner, by rw [Option.some.inj bracket]⟩
    rw [exists_eq_hostText_open_iff]
    cases cut : cutAt 93 inner with
    | none =>
        rw [hostOf_unclosed colon closes (.inl (cutAt_eq_none_iff.mp cut))]
        exact iff_of_false nothing (by simp)
    | some parts =>
        obtain ⟨front, rest⟩ := parts
        obtain ⟨rfl, clean⟩ := cutAt_eq_some_iff.mp cut
        cases rest with
        | cons byte rest =>
            rw [hostOf_unclosed colon closes (.inr ⟨front, byte, rest, rfl, clean⟩)]
            exact iff_of_false nothing (by simp)
        | nil =>
            have shape : 91 :: (front ++ [93]) ++ 58 :: digits =
                91 :: front ++ 93 :: 58 :: digits := by simp
            rw [shape, hostOf_bracketed clean colon opens closes, Option.some.injEq, Prod.mk.injEq,
              and_iff_left rfl]
            by_cases nested : 91 ∈ front
            · rw [if_pos nested]
              refine iff_of_false nothing ?_
              rintro rfl
              exact open_notMem_dotted address nested
            · rw [if_neg nested]
              exact parseIPTo4_eq_some_iff fun member => noColon (by simp [member])
  · have plain : (host ++ 58 :: digits).head? ≠ some 91 := by
      cases host with
      | nil => simp
      | cons first rest => exact bracket
    rw [exists_eq_hostText_plain_iff bracket, hostOf_plain noColon colon opens closes plain]
    by_cases brackets : 91 ∈ host ∨ 93 ∈ host
    · rw [if_pos brackets]
      refine iff_of_false nothing ?_
      rintro rfl
      exact brackets.elim (open_notMem_dotted address) (close_notMem_dotted address)
    · rw [if_neg brackets]
      exact parseIPTo4_eq_some_iff noColon

end Host

/-! ## The bodies that are accepted -/

theorem backendAddress_eq_ok_iff {value address : Bytes} :
    backendAddress value = .ok address ↔
      ∃ (host numeral : Bytes) (port : Nat), value = host ++ 58 :: numeral ∧ 58 ∉ host ∧ host ≠ [] ∧
        atoi numeral = some (port : Int) ∧ 1 ≤ port ∧ port ≤ 65535 ∧
        address = host ++ 58 :: decimal port := by
  constructor
  · intro accepted
    unfold backendAddress at accepted
    split at accepted
    · cases accepted
    · rename_i host numeral cut
      obtain ⟨rfl, noColon⟩ := cutAt_eq_some_iff.mp cut
      split at accepted
      · cases accepted
      · rename_i nonempty
        split at accepted
        · cases accepted
        · rename_i port read
          unfold hostPort at accepted
          split at accepted
          · cases accepted
          · rename_i inRange
            obtain ⟨number, rfl⟩ : ∃ number : Nat, port = number := ⟨port.toNat, by omega⟩
            rw [joinHostPort, if_neg noColon] at accepted
            refine ⟨host, numeral, number, rfl, noColon, (not_or.mp nonempty).1, read, by omega,
              by omega, ?_⟩
            rw [← Except.ok.inj accepted, List.append_assoc]
            rfl
  · rintro ⟨host, numeral, port, rfl, noColon, nonempty, read, above, below, rfl⟩
    have numeralNonempty : numeral ≠ [] := by
      rintro rfl
      cases read
    have inRange : ¬ ((port : Int) < 1 ∨ 65535 < (port : Int)) := by omega
    rw [backendAddress, cutAt_append noColon]
    dsimp only
    rw [if_neg (by simp [nonempty, numeralNonempty]), read]
    dsimp only
    rw [hostPort, if_neg inRange, joinHostPort, if_neg noColon, List.append_assoc]
    rfl

/-- A body that was read whole. -/
theorem readLimited_eq_some_iff {body read : Bytes} {fails : Bool} :
    (readLimited (maxAddressSize + 1) body fails = some read ∧ ¬ maxAddressSize < read.length) ↔
      fails = false ∧ body.length ≤ maxAddressSize ∧ read = body := by
  unfold readLimited
  constructor
  · rintro ⟨whole, small⟩
    split at whole
    · cases whole
    · rename_i noError
      obtain rfl := Option.some.inj whole
      rw [List.length_take] at small
      refine ⟨?_, by omega, List.take_of_length_le (by omega)⟩
      rw [← Bool.not_eq_true]
      exact fun failed => noError ⟨failed, by omega⟩
  · rintro ⟨rfl, small, rfl⟩
    rw [if_neg (by simp), List.take_of_length_le (by omega)]
    exact ⟨rfl, by omega⟩

theorem colon_notMem_hostText (bracketed : Bool) (address : IPv4) :
    58 ∉ hostText bracketed address := by
  have clean : 58 ∉ address.dotted := notMem_dotted (by decide) (by decide) address
  cases bracketed with
  | true => simp [hostText, ascii, clean]
  | false => exact clean

theorem hostText_ne_nil (bracketed : Bool) (address : IPv4) : hostText bracketed address ≠ [] := by
  cases bracketed with
  | true => simp [hostText, ascii]
  | false => exact dotted_ne_nil address

/-- **The bodies that the registry accepts**: they can be read, are not too long, and name an
endpoint with a port from 1 to 65535. -/
theorem registryAddress_eq_ok_iff (mapped : Bytes → Option IPv4) {request : RegistryRequest}
    {address : Bytes} :
    registryAddress mapped request = .ok address ↔
      request.bodyFails = false ∧ request.body.length ≤ maxAddressSize ∧
        ∃ bracketed endpoint, Names request.body bracketed endpoint ∧ 1 ≤ endpoint.port ∧
          endpoint.port ≤ 65535 ∧ address = storedAddress bracketed endpoint := by
  have digits : ∀ number : Nat, ∀ byte ∈ decimal number, isDecimalDigit byte = true :=
    fun number => List.all_eq_true.mp (all_isDecimalDigit_decimal number)
  constructor
  · intro accepted
    unfold registryAddress at accepted
    split at accepted
    · cases accepted
    · rename_i body read
      split at accepted
      · cases accepted
      · rename_i small
        obtain ⟨noError, short, rfl⟩ := readLimited_eq_some_iff.mp ⟨read, small⟩
        refine ⟨noError, short, ?_⟩
        split at accepted
        · cases accepted
        · rename_i backend parsed
          split at accepted
          · cases accepted
          · rename_i quad isIPv4
            obtain rfl := Except.ok.inj accepted
            obtain ⟨host, numeral, port, value, noColon, -, readPort, above, below, rfl⟩ :=
              backendAddress_eq_ok_iff.mp parsed
            obtain ⟨bracketed, rfl⟩ :=
              (parseIPTo4_hostOf_iff mapped noColon (digits port)).mp isIPv4
            refine ⟨bracketed, ⟨quad, port⟩, ⟨numeral, ?_, readPort⟩, above, below, ?_⟩
            · rw [value, List.append_assoc]
              rfl
            · rw [storedAddress, List.append_assoc]
              rfl
  · rintro ⟨noError, short, bracketed, endpoint, ⟨numeral, value, readPort⟩, above, below, rfl⟩
    obtain ⟨read, small⟩ := readLimited_eq_some_iff.mpr ⟨noError, short, rfl⟩
    have parsed : backendAddress (trimSpace request.body) =
        .ok (storedAddress bracketed endpoint) := by
      refine backendAddress_eq_ok_iff.mpr ⟨hostText bracketed endpoint.address, numeral,
        endpoint.port, ?_, colon_notMem_hostText _ _, hostText_ne_nil _ _, readPort, above, below,
        ?_⟩
      · rw [value, List.append_assoc]
        rfl
      · rw [storedAddress, List.append_assoc]
        rfl
    have isIPv4 : parseIPTo4 mapped (hostOf (storedAddress bracketed endpoint)) =
        some endpoint.address := by
      rw [storedAddress, List.append_assoc]
      exact (parseIPTo4_hostOf_iff mapped (colon_notMem_hostText _ _)
        (digits endpoint.port)).mpr ⟨bracketed, rfl⟩
    rw [registryAddress, read]
    dsimp only
    rw [if_neg small, parsed]
    dsimp only
    rw [isIPv4]

/-! ## One endpoint, two spellings -/

section Spelling

variable {body other : Bytes} {bracketed otherBracketed : Bool} {endpoint otherEndpoint : Endpoint}

theorem open_mem_hostText_iff {address : IPv4} :
    91 ∈ hostText bracketed address ↔ bracketed = true := by
  cases bracketed with
  | true => simp [hostText, ascii]
  | false => exact iff_of_false (open_notMem_dotted address) Bool.false_ne_true

theorem hostText_inj {address otherAddress : IPv4}
    (same : hostText bracketed address = hostText otherBracketed otherAddress) :
    bracketed = otherBracketed ∧ address = otherAddress := by
  have brackets : bracketed = otherBracketed := by
    rw [Bool.eq_iff_iff, ← @open_mem_hostText_iff bracketed address, same, open_mem_hostText_iff]
  subst brackets
  cases bracketed with
  | true => exact ⟨rfl, dotted_injective (List.append_cancel_right (List.cons.inj same).2)⟩
  | false => exact ⟨rfl, dotted_injective same⟩

/-- What stands before and after the first colon is the host and the port. -/
theorem hostText_append_inj {address otherAddress : IPv4} {numeral otherNumeral : Bytes}
    (same : hostText bracketed address ++ ascii ":" ++ numeral =
      hostText otherBracketed otherAddress ++ ascii ":" ++ otherNumeral) :
    (bracketed = otherBracketed ∧ address = otherAddress) ∧ numeral = otherNumeral := by
  rw [List.append_assoc, List.append_assoc] at same
  obtain ⟨hosts, numerals⟩ :=
    append_delimiter_inj (colon_notMem_hostText _ _) (colon_notMem_hostText _ _) same
  exact ⟨hostText_inj hosts, numerals⟩

/-- A body names one endpoint only, in one way. -/
theorem Names.unique (names : Names body bracketed endpoint)
    (otherNames : Names body otherBracketed otherEndpoint) :
    bracketed = otherBracketed ∧ endpoint = otherEndpoint := by
  obtain ⟨numeral, value, read⟩ := names
  obtain ⟨otherNumeral, otherValue, otherRead⟩ := otherNames
  obtain ⟨⟨sameBrackets, sameAddress⟩, rfl⟩ := hostText_append_inj (value.symm.trans otherValue)
  rw [read, Option.some.injEq, Int.ofNat_inj] at otherRead
  refine ⟨sameBrackets, ?_⟩
  cases endpoint
  cases otherEndpoint
  simp_all

/-- Stored addresses differ where the endpoint or the spelling of its host does. -/
theorem storedAddress_inj
    (same : storedAddress bracketed endpoint = storedAddress otherBracketed otherEndpoint) :
    bracketed = otherBracketed ∧ endpoint = otherEndpoint := by
  obtain ⟨⟨sameBrackets, sameAddress⟩, samePort⟩ := hostText_append_inj same
  have numbers := congrArg digitsValue samePort
  rw [digitsValue_decimal, digitsValue_decimal] at numbers
  refine ⟨sameBrackets, ?_⟩
  cases endpoint
  cases otherEndpoint
  simp_all

/-- The trimmed body starts with a bracket. -/
def Bracketed (body : Bytes) : Prop := (trimSpace body).head? = some 91

theorem Names.bracketed_iff (names : Names body bracketed endpoint) :
    Bracketed body ↔ bracketed = true := by
  obtain ⟨numeral, value, -⟩ := names
  rw [Bracketed, value]
  cases bracketed with
  | true => simp [hostText, ascii]
  | false =>
      have nonempty := dotted_ne_nil endpoint.address
      have noOpen := open_notMem_dotted endpoint.address
      simp only [hostText, Bool.false_eq_true, if_false, iff_false]
      rw [List.append_assoc, List.head?_append_of_ne_nil _ nonempty]
      exact fun head => noOpen (List.mem_of_head? head)

/-- The two bodies name the same IPv4 address and port. -/
def SameEndpoint (one other : Bytes) : Prop :=
  ∃ endpoint, (∃ bracketed, Names one bracketed endpoint) ∧
    ∃ bracketed, Names other bracketed endpoint

theorem sameEndpoint_iff (names : Names body bracketed endpoint)
    (otherNames : Names other otherBracketed otherEndpoint) :
    SameEndpoint body other ↔ endpoint = otherEndpoint := by
  constructor
  · rintro ⟨shared, ⟨_, first⟩, ⟨_, second⟩⟩
    rw [(names.unique first).2, (otherNames.unique second).2]
  · rintro rfl
    exact ⟨endpoint, ⟨bracketed, names⟩, ⟨otherBracketed, otherNames⟩⟩

/-- **When the stored addresses tell the endpoints apart**: unless the bodies name one endpoint,
one of them in brackets and the other without. -/
theorem storedAddress_canonical_iff (names : Names body bracketed endpoint)
    (otherNames : Names other otherBracketed otherEndpoint) :
    ((storedAddress bracketed endpoint = storedAddress otherBracketed otherEndpoint ↔
        SameEndpoint body other) ↔
      (SameEndpoint body other → (Bracketed body ↔ Bracketed other))) := by
  rw [sameEndpoint_iff names otherNames, names.bracketed_iff, otherNames.bracketed_iff]
  constructor
  · rintro canonical same
    rw [(storedAddress_inj (canonical.mpr same)).1]
  · intro alike
    refine ⟨fun same => (storedAddress_inj same).2, ?_⟩
    rintro rfl
    rw [Bool.eq_iff_iff.mpr (alike rfl)]

end Spelling

/-! ## A stored address as a body -/

theorem mem_hostText {bracketed : Bool} {address : IPv4} {byte : UInt8}
    (member : byte ∈ hostText bracketed address) : 46 ≤ byte.toNat ∧ byte.toNat < 0x80 := by
  have inside : byte ∈ address.dotted → 46 ≤ byte.toNat ∧ byte.toNat < 0x80 := by
    intro inDotted
    have bounds := mem_dotted inDotted
    omega
  cases bracketed with
  | false => exact inside member
  | true =>
      simp only [hostText, if_true, List.mem_append] at member
      rcases member with (opens | inDotted) | closes
      · rw [List.mem_singleton.mp opens]
        decide
      · exact inside inDotted
      · rw [List.mem_singleton.mp closes]
        decide

theorem names_storedAddress (bracketed : Bool) {endpoint : Endpoint}
    (small : endpoint.port ≤ 65535) :
    Names (storedAddress bracketed endpoint) bracketed endpoint := by
  refine ⟨decimal endpoint.port, trimSpace_of_printable ?_, atoi_decimal (by omega)⟩
  intro byte member
  simp only [storedAddress, List.mem_append] at member
  rcases member with (inHost | isColon) | inPort
  · have bounds := mem_hostText inHost
    omega
  · rw [List.mem_singleton.mp isColon]
    decide
  · have bounds := mem_decimal inPort
    omega

theorem storedAddress_length_le (bracketed : Bool) {endpoint : Endpoint}
    (small : endpoint.port ≤ 65535) :
    (storedAddress bracketed endpoint).length ≤ maxAddressSize := by
  have host := dotted_length_le endpoint.address
  have port : (decimal endpoint.port).length ≤ 5 :=
    decimal_length_le (by omega) (by omega)
  have colon : (ascii ":").length = 1 := rfl
  have opens : (ascii "[").length = 1 := rfl
  have closes : (ascii "]").length = 1 := rfl
  rw [storedAddress, List.length_append, List.length_append, colon, hostText]
  unfold maxAddressSize
  split
  · rw [List.length_append, List.length_append, opens, closes]
    omega
  · omega

/-- **A stored address is accepted, and stored as it is.** -/
theorem registryAddress_storedAddress (mapped : Bytes → Option IPv4) (bracketed : Bool)
    {endpoint : Endpoint} (positive : 1 ≤ endpoint.port) (small : endpoint.port ≤ 65535)
    {request : RegistryRequest} (sent : request.body = storedAddress bracketed endpoint)
    (noError : request.bodyFails = false) :
    registryAddress mapped request = .ok (storedAddress bracketed endpoint) := by
  refine (registryAddress_eq_ok_iff mapped).mpr ⟨noError, ?_, bracketed, endpoint, ?_, positive,
    small, rfl⟩
  · rw [sent]
    exact storedAddress_length_le bracketed small
  · rw [sent]
    exact names_storedAddress bracketed small

end InfraFromScratch.LoadBalancer
