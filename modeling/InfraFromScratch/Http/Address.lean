import InfraFromScratch.Foundations.Lines
import InfraFromScratch.Foundations.Numerals

/-!
# The addresses of the HTTP client

`URL` in `http-server/client.py` takes an address apart. An address without `://` gets `http://` in
front, the scheme is what stands before the first `://`, the path starts at the first slash
after it, and the port stands after the last colon before the path.

A `://` may also stand in the path. An explicit address is not harmed by it, but a bare one
then has its scheme cut there, and is refused. So the two forms of an address parse alike exactly
when the path has no `://` (`bare_explicit_alike_iff`).
-/

set_option autoImplicit false

namespace InfraFromScratch.Http

open Foundations

namespace Client

/-- `URL`. -/
structure URL where
  scheme : Text
  host : Text
  port : Int
  path : Text
  hostHeader : Text
  deriving DecidableEq, Repr

/-- The `ValueError`s of `URL`. -/
inductive AddressError where
  /-- `Only http:// addresses are supported`. -/
  | unsupportedScheme
  /-- `Invalid port in`, with the address after its scheme. -/
  | invalidPort (address : Text)
  /-- `A host is required`. -/
  | missingHost
  /-- `Port must be between 1 and 65535`. -/
  | portOutOfRange
  deriving DecidableEq, Repr

/-- The end of a scheme. -/
def schemeEnd : Text := "://".toList

/-- The authority and the path of an address without its scheme. -/
def splitPath (address : Text) : Text × Text :=
  match cutAt '/' address with
  | some (authority, path) => (authority, '/' :: path)
  | none => (address, ['/'])

/-- The checks at the end of `URL.__init__`. -/
def URL.checked (authority path host : Text) (port : Int) : Except AddressError URL :=
  if host = [] then .error .missingHost
  else if ¬ (1 ≤ port ∧ port ≤ 65535) then .error .portOutOfRange
  else .ok { scheme := "http".toList, host, port, path, hostHeader := authority }

/-- `URL.__init__` after the check of the scheme. -/
def URL.ofRest (decimalOf : Char → Option (Fin 10)) (address : Text) : Except AddressError URL :=
  let (authority, path) := splitPath address
  match cutAtLast ':' authority with
  | some (host, port) =>
      match pythonInt decimalOf port with
      | none => .error (.invalidPort address)
      | some port => URL.checked authority path host port
  | none => URL.checked authority path authority 80

/-- `URL.__init__`. -/
def URL.init (decimalOf : Char → Option (Fin 10)) (address : Text) : Except AddressError URL :=
  let explicit := if indexOf schemeEnd address = none then "http://".toList ++ address else address
  let (scheme, rest) := cutAround schemeEnd explicit
  if scheme ≠ "http".toList then .error .unsupportedScheme else URL.ofRest decimalOf rest

variable {decimalOf : Char → Option (Fin 10)}

/-! ## The scheme -/

/-- An explicit address is read after its scheme. -/
theorem init_explicit (rest : Text) :
    URL.init decimalOf ("http://".toList ++ rest) = URL.ofRest decimalOf rest := by
  have clean : ':' ∉ "http".toList := by decide
  have found : indexOf schemeEnd ("http".toList ++ (schemeEnd ++ rest)) = some 4 :=
    indexOf_of_clean clean "//".toList rest
  have shape : "http://".toList ++ rest = "http".toList ++ (schemeEnd ++ rest) := by
    rw [← List.append_assoc]
    rfl
  rw [URL.init, shape, if_neg (by rw [found]; exact Option.some_ne_none 4), cutAround, found]
  dsimp only
  rw [if_neg]
  · rfl
  · exact not_not.mpr rfl

/-- A bare address without `://` is read whole. -/
theorem init_bare {address : Text} (bare : ¬ schemeEnd <:+: address) :
    URL.init decimalOf address = URL.ofRest decimalOf address := by
  have missing : indexOf schemeEnd ("http://".toList ++ address) ≠ none := by
    rw [ne_eq, indexOf_eq_none_iff, not_not]
    exact ⟨"http".toList, address, rfl⟩
  rw [← init_explicit, URL.init, URL.init, if_pos (indexOf_eq_none_iff.mpr bare), if_neg missing]

/-- Where a `://` can only start in the path, it decides: with one, the slash before the path
falls into the scheme. -/
theorem init_of_front {front path : Text} (slash : '/' ∈ front)
    (moved : indexOf schemeEnd (front ++ path) = (indexOf schemeEnd path).map (· + front.length)) :
    URL.init decimalOf (front ++ path) =
      if schemeEnd <:+: path then .error .unsupportedScheme
      else URL.ofRest decimalOf (front ++ path) := by
  cases found : indexOf schemeEnd path with
  | none =>
      rw [found, Option.map_none, indexOf_eq_none_iff] at moved
      rw [if_neg (indexOf_eq_none_iff.mp found), init_bare moved]
  | some index =>
      have occurs : schemeEnd <:+: path := by
        by_contra missing
        rw [indexOf_eq_none_iff.mpr missing] at found
        cases found
      rw [found, Option.map_some] at moved
      rw [if_pos occurs, URL.init, moved, if_neg (Option.some_ne_none _), cutAround, moved]
      dsimp only
      rw [if_pos]
      intro isHttp
      have inScheme : '/' ∈ (front ++ path).take (index + front.length) := by
        rw [List.take_append, List.take_of_length_le (Nat.le_add_left _ _)]
        exact List.mem_append_left _ slash
      rw [isHttp] at inScheme
      exact absurd inScheme (by decide)

/-! ## Addresses from their parts -/

section Parts

variable {host : Text}

theorem splitPath_append {authority : Text} (clean : '/' ∉ authority) (path : Text) :
    splitPath (authority ++ '/' :: path) = (authority, '/' :: path) := by
  rw [splitPath, cutAt_append clean]

/-- The rest of an address with a port. -/
theorem ofRest_port (nonempty : host ≠ []) (noSlash : '/' ∉ host) {port : Nat}
    (positive : 1 ≤ port) (small : port ≤ 65535) (path : Text) :
    URL.ofRest decimalOf (host ++ ':' :: decimalText port ++ '/' :: path) =
      .ok ⟨"http".toList, host, port, '/' :: path, host ++ ':' :: decimalText port⟩ := by
  have clean : '/' ∉ host ++ ':' :: decimalText port := by
    simp [noSlash, notMem_decimalText]
  have read : pythonInt decimalOf (decimalText port) = some (port : Int) := by
    refine pythonInt_decimalText decimalOf ?_
    have short : (decimal port).length ≤ 5 := decimal_length_le (by omega) (by omega)
    exact short.trans (by decide)
  have inRange : ¬ ¬ (1 ≤ (port : Int) ∧ (port : Int) ≤ 65535) := by omega
  rw [URL.ofRest, splitPath_append clean]
  dsimp only
  rw [cutAtLast_append (notMem_decimalText (by decide) port)]
  dsimp only
  rw [read]
  dsimp only
  rw [URL.checked, if_neg nonempty, if_neg inRange]

/-- The rest of an address without a port. -/
theorem ofRest_plain (nonempty : host ≠ []) (noSlash : '/' ∉ host) (noColon : ':' ∉ host)
    (path : Text) :
    URL.ofRest decimalOf (host ++ '/' :: path) =
      .ok ⟨"http".toList, host, 80, '/' :: path, host⟩ := by
  rw [URL.ofRest, splitPath_append noSlash]
  dsimp only
  rw [cutAtLast_eq_none_iff.mpr noColon]
  dsimp only
  rw [URL.checked, if_neg nonempty, if_neg (by decide)]

/-- No `://` starts in text without a colon. -/
theorem indexOf_schemeEnd_append {front : Text} (clean : ':' ∉ front) (text : Text) :
    indexOf schemeEnd (front ++ text) = (indexOf schemeEnd text).map (· + front.length) := by
  have shape : schemeEnd = ':' :: ['/', '/'] := by decide
  rw [shape]
  exact indexOf_clean_append clean ['/', '/'] text

/-- No `://` starts before the path of an address with a port: a digit follows the colon. -/
theorem indexOf_schemeEnd_port (noColon : ':' ∉ host) (port : Nat) (path : Text) :
    indexOf schemeEnd (host ++ ':' :: decimalText port ++ ['/'] ++ path) =
      (indexOf schemeEnd path).map (· + (host ++ ':' :: decimalText port ++ ['/']).length) := by
  have digits : ':' ∉ decimalText port ++ ['/'] := by
    simp [notMem_decimalText]
  have notHere : ¬ schemeEnd <+: ':' :: (decimalText port ++ ['/'] ++ path) := by
    obtain ⟨digit, others, spelled⟩ := List.exists_cons_of_ne_nil (decimalText_ne_nil port)
    have noSlash : '/' ≠ digit := by
      rintro rfl
      exact notMem_decimalText (by decide) port (spelled ▸ List.mem_cons_self)
    rw [spelled]
    simp [schemeEnd, List.cons_prefix_cons, noSlash]
  have shape : host ++ ':' :: decimalText port ++ ['/'] ++ path =
      host ++ ':' :: (decimalText port ++ ['/'] ++ path) := by simp
  rw [shape, indexOf_schemeEnd_append noColon, indexOf, if_neg notHere,
    indexOf_schemeEnd_append digits, Option.map_map, Option.map_map]
  congr 1
  funext index
  simp only [Function.comp_apply, List.length_append, List.length_cons, List.length_nil]
  omega

end Parts

/-- The address was accepted, and taken apart into this host, port and path. -/
def ParsesTo (outcome : Except AddressError URL) (host : Text) (port : Nat) (path : Text) : Prop :=
  ∃ url, outcome = .ok url ∧ url.host = host ∧ url.port = port ∧ url.path = path

/-- **When bare and explicit addresses parse alike.** With a port and without one, both forms of
an address give its host, its port and its path, iff the path has no `://`. -/
theorem bare_explicit_alike_iff (decimalOf : Char → Option (Fin 10)) (host : Text) (port : Nat)
    (path : Text) (nonempty : host ≠ []) (noSlash : '/' ∉ host) (noColon : ':' ∉ host)
    (positive : 1 ≤ port) (small : port ≤ 65535) :
    (ParsesTo (URL.init decimalOf (host ++ ":".toList ++ decimalText port ++ "/".toList ++ path))
        host port ("/".toList ++ path) ∧
      ParsesTo (URL.init decimalOf
        ("http://".toList ++ host ++ ":".toList ++ decimalText port ++ "/".toList ++ path))
        host port ("/".toList ++ path) ∧
      ParsesTo (URL.init decimalOf (host ++ "/".toList ++ path)) host 80 ("/".toList ++ path) ∧
      ParsesTo (URL.init decimalOf ("http://".toList ++ host ++ "/".toList ++ path)) host 80
        ("/".toList ++ path)) ↔
      ¬ schemeEnd <:+: path := by
  have joinedPort : host ++ ":".toList ++ decimalText port ++ "/".toList ++ path =
      host ++ ':' :: decimalText port ++ ['/'] ++ path := by simp
  have joined : host ++ "/".toList ++ path = host ++ ['/'] ++ path := rfl
  have explicitPort : "http://".toList ++ host ++ ":".toList ++ decimalText port ++ "/".toList ++
      path = "http://".toList ++ (host ++ ':' :: decimalText port ++ ['/'] ++ path) := by
    rw [← joinedPort]
    simp only [List.append_assoc]
  have explicit : "http://".toList ++ host ++ "/".toList ++ path =
      "http://".toList ++ (host ++ ['/'] ++ path) := by
    simp only [List.append_assoc]
    rfl
  have restPort : URL.ofRest decimalOf (host ++ ':' :: decimalText port ++ ['/'] ++ path) =
      .ok ⟨"http".toList, host, port, '/' :: path, host ++ ':' :: decimalText port⟩ := by
    rw [List.append_assoc]
    exact ofRest_port nonempty noSlash positive small path
  have rest : URL.ofRest decimalOf (host ++ ['/'] ++ path) =
      .ok ⟨"http".toList, host, 80, '/' :: path, host⟩ := by
    rw [List.append_assoc]
    exact ofRest_plain nonempty noSlash noColon path
  rw [joinedPort, joined, explicitPort, explicit, init_explicit, init_explicit,
    init_of_front (by simp) (indexOf_schemeEnd_port noColon port path),
    init_of_front (by simp) (indexOf_schemeEnd_append (by simp [noColon]) path), restPort, rest]
  constructor
  · rintro ⟨⟨url, accepted, -⟩, -⟩ occurs
    rw [if_pos occurs] at accepted
    cases accepted
  · intro missing
    rw [if_neg missing, if_neg missing]
    exact ⟨⟨_, rfl, rfl, rfl, rfl⟩, ⟨_, rfl, rfl, rfl, rfl⟩, ⟨_, rfl, rfl, rfl, rfl⟩,
      ⟨_, rfl, rfl, rfl, rfl⟩⟩

/-- The address of the tests, in both forms. -/
theorem bare_explicit_alike_hello :
    ParsesTo (URL.init (fun _ => none) ("localhost".toList ++ ":".toList ++ decimalText 8088 ++
      "/".toList ++ "hello".toList)) "localhost".toList 8088 ("/".toList ++ "hello".toList) :=
  ((bare_explicit_alike_iff (fun _ => none) "localhost".toList 8088 "hello".toList (by decide)
    (by decide) (by decide) (by decide) (by decide)).mpr (by decide)).1

/-- **A bare address with `://` in its path is refused**, and the explicit one is not. -/
theorem bare_address_refused :
    URL.init (fun _ => none) "localhost:8088/login?next=http://localhost/".toList =
        .error .unsupportedScheme ∧
      URL.init (fun _ => none) "http://localhost:8088/login?next=http://localhost/".toList =
        .ok ⟨"http".toList, "localhost".toList, 8088, "/login?next=http://localhost/".toList,
          "localhost:8088".toList⟩ := by
  have shape : "http://localhost:8088/login?next=http://localhost/".toList = "http://".toList ++
      ("localhost".toList ++ ':' :: decimalText 8088 ++
        '/' :: "login?next=http://localhost/".toList) := by decide
  refine ⟨by decide, ?_⟩
  rw [shape, init_explicit, ofRest_port (by decide) (by decide) (by decide) (by decide)]
  decide

end Client

end InfraFromScratch.Http
