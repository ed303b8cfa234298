import InfraFromScratch.LoadBalancer.Registry

/-!
# The addresses in the registry

`serve` in `http-server/server.py` advertises the host and port it listens on, and `update_registry`
sends them to the load balancer in the body of a PUT or DELETE. The registry stores what it makes
of the body, and finds an entry again by comparing strings.

An advertised address is stored as it was sent, so the DELETE of a server finds what its PUTs have
stored. Among all bodies, two that name one endpoint are stored under one string unless exactly
one of them writes its host in brackets (`registry_canonical_iff`). Then the endpoint is
registered twice (`brackets_register_twice`).
-/

set_option autoImplicit false

namespace InfraFromScratch.Stack

open Foundations LoadBalancer

/-! ## What the server sends -/

/-- `socket.inet_pton(socket.AF_INET, host)`, or nothing where it raises `OSError`. -/
def inetPton (host : Text) : Option IPv4 := dottedQuad (encodeUtf8 host)

/-- The address that `serve` advertises, or the text of its `ValueError`. -/
def advertisedAddress (host : Text) (port : Nat) : Except String Text :=
  let advertisedHost := if host = "0.0.0.0".toList then "127.0.0.1".toList else host
  match inetPton advertisedHost with
  | none => .error "registry mode requires an IPv4 listen host"
  | some _ => .ok (advertisedHost ++ ":".toList ++ decimalText port)

/-- The request of `update_registry`, unless the address cannot be encoded. -/
def updateRegistry (address : Text) (method : String) : Option RegistryRequest :=
  (encodeAscii address).map fun data => ⟨"/backends", method, data, false⟩

/-- A host that `inet_pton` accepts is the dotted notation of an address. -/
theorem inetPton_eq_some {host : Text} {address : IPv4} (accepted : inetPton host = some address) :
    (∀ character ∈ host, character.toNat < 128) ∧ asciiBytes host = address.dotted := by
  have bytes : encodeUtf8 host = address.dotted := dottedQuad_eq_some_iff.mp accepted
  have small : ∀ character ∈ host, character.toNat < 128 := by
    apply small_of_encodeUtf8
    intro byte member
    rw [bytes] at member
    have bounds := mem_dotted member
    omega
  exact ⟨small, by rw [← encodeUtf8_of_small small, bytes]⟩

/-- **An advertised address** is ASCII, and the spelling without brackets of an endpoint. -/
theorem advertisedAddress_eq_ok {host address : Text} {port : Nat}
    (advertised : advertisedAddress host port = .ok address) :
    (∀ character ∈ address, character.toNat < 128) ∧
      ∃ quad, asciiBytes address = storedAddress false ⟨quad, port⟩ := by
  unfold advertisedAddress at advertised
  dsimp only at advertised
  split at advertised
  · cases advertised
  · rename_i quad accepted
    obtain rfl := Except.ok.inj advertised
    obtain ⟨small, bytes⟩ := inetPton_eq_some accepted
    refine ⟨?_, quad, ?_⟩
    · intro character member
      simp only [List.mem_append] at member
      rcases member with (inHost | isColon) | inPort
      · exact small character inHost
      · rw [List.mem_singleton.mp isColon]
        decide
      · have digit := decimalText_small inPort
        omega
    · rw [asciiBytes, List.map_append, List.map_append]
      rw [asciiBytes] at bytes
      rw [bytes]
      rfl

/-- The requests for an advertised address. -/
theorem updateRegistry_advertised {host address : Text} {port : Nat}
    (advertised : advertisedAddress host port = .ok address) (method : String) :
    updateRegistry address method = some ⟨"/backends", method, asciiBytes address, false⟩ := by
  obtain ⟨small, -⟩ := advertisedAddress_eq_ok advertised
  have allAscii : isAscii address = true := by
    rw [isAscii, List.all_eq_true]
    intro character member
    exact decide_eq_true (small character member)
  rw [updateRegistry, encodeAscii, if_pos allAscii, Option.map_some]

/-! ## What the registry does with it -/

section Handler

variable {mapped : Bytes → Option IPv4} {address : Bytes} {request : RegistryRequest}

theorem registryHandler_put (there : request.path = "/backends") (put : request.method = "PUT")
    (accepted : registryAddress mapped request = .ok address) (now : Int) (pool : BackendPool) :
    (registryHandler mapped now pool request).1 = (pool.register now (goString address)).1 := by
  rw [registryHandler, if_neg (not_not.mpr there), put, if_neg (by decide), if_neg (by decide),
    accepted]
  dsimp only
  rw [if_pos rfl]
  split
  · rename_i registered message outcome
    rw [outcome]
  · rename_i registered outcome
    rw [outcome]

theorem registryHandler_delete (there : request.path = "/backends")
    (delete : request.method = "DELETE") (accepted : registryAddress mapped request = .ok address)
    (now : Int) (pool : BackendPool) :
    (registryHandler mapped now pool request).1 = (pool.remove (goString address)).1 := by
  rw [registryHandler, if_neg (not_not.mpr there), delete, if_neg (by decide), if_neg (by decide),
    accepted]
  dsimp only
  rw [if_neg (by decide)]
  split
  · rename_i left outcome
    rw [outcome]
  · rename_i left outcome
    rw [outcome]

/-- A body is stored under a string that the body of a DELETE reaches, if it is an advertised
address: both requests pass the address as it was sent. -/
theorem advertised_stored (mapped : Bytes → Option IPv4) {host address : Text} {port : Nat}
    (positive : 1 ≤ port) (small : port ≤ 65535)
    (advertised : advertisedAddress host port = .ok address) :
    ∃ put delete, updateRegistry address "PUT" = some put ∧
      updateRegistry address "DELETE" = some delete ∧
      registryAddress mapped put = .ok put.body ∧ goString put.body = String.ofList address ∧
      ∀ now pool,
        (registryHandler mapped now pool put).1 =
            (pool.register now (String.ofList address)).1 ∧
          (registryHandler mapped now pool delete).1 =
            (pool.remove (String.ofList address)).1 := by
  obtain ⟨allAscii, quad, bytes⟩ := advertisedAddress_eq_ok advertised
  have accepted : ∀ method,
      registryAddress mapped ⟨"/backends", method, asciiBytes address, false⟩ =
        .ok (asciiBytes address) := by
    intro method
    rw [registryAddress_storedAddress mapped false positive small bytes rfl, bytes]
  have verbatim : goString (asciiBytes address) = String.ofList address := by
    rw [goString, decodeLatin1_asciiBytes allAscii]
  refine ⟨_, _, updateRegistry_advertised advertised "PUT",
    updateRegistry_advertised advertised "DELETE", accepted "PUT", verbatim, ?_⟩
  intro now pool
  rw [← verbatim]
  exact ⟨registryHandler_put rfl rfl (accepted "PUT") now pool,
    registryHandler_delete rfl rfl (accepted "DELETE") now pool⟩

end Handler

/-! ## Canonical addresses -/

/-- **When the registry's addresses are canonical.** Two accepted bodies are registered under the
same string exactly when they name the same endpoint, iff it is not the case that they name the
same endpoint and only one of them writes its host in brackets. Always, a stored address is
accepted as a body and stored as it is, and so is every advertised address. -/
theorem registry_canonical_iff (mapped : Bytes → Option IPv4) :
    (∀ (one other : RegistryRequest) (address otherAddress : Bytes),
      registryAddress mapped one = .ok address →
      registryAddress mapped other = .ok otherAddress →
      ((goString address = goString otherAddress ↔ SameEndpoint one.body other.body) ↔
        (SameEndpoint one.body other.body → (Bracketed one.body ↔ Bracketed other.body)))) ∧
    (∀ (request again : RegistryRequest) (address : Bytes),
      registryAddress mapped request = .ok address → again.body = address →
      again.bodyFails = false → registryAddress mapped again = .ok address) ∧
    ∀ (host address : Text) (port : Nat), 1 ≤ port → port ≤ 65535 →
      advertisedAddress host port = .ok address →
      ∃ put delete, updateRegistry address "PUT" = some put ∧
        updateRegistry address "DELETE" = some delete ∧
        registryAddress mapped put = .ok put.body ∧ goString put.body = String.ofList address ∧
        ∀ now pool,
          (registryHandler mapped now pool put).1 =
              (pool.register now (String.ofList address)).1 ∧
            (registryHandler mapped now pool delete).1 =
              (pool.remove (String.ofList address)).1 := by
  refine ⟨?_, ?_, ?_⟩
  · intro one other address otherAddress accepted otherAccepted
    obtain ⟨-, -, bracketed, endpoint, names, -, -, rfl⟩ :=
      (registryAddress_eq_ok_iff mapped).mp accepted
    obtain ⟨-, -, otherBracketed, otherEndpoint, otherNames, -, -, rfl⟩ :=
      (registryAddress_eq_ok_iff mapped).mp otherAccepted
    rw [goString_injective.eq_iff]
    exact storedAddress_canonical_iff names otherNames
  · rintro request again address accepted sent noError
    obtain ⟨-, -, bracketed, endpoint, -, positive, small, rfl⟩ :=
      (registryAddress_eq_ok_iff mapped).mp accepted
    exact registryAddress_storedAddress mapped bracketed positive small sent noError
  · intro host address port positive small advertised
    exact advertised_stored mapped positive small advertised

/-- The endpoint 127.0.0.1:8088. -/
def localEndpoint : Endpoint := ⟨⟨127, 0, 0, 1⟩, 8088⟩

/-- A PUT with the given body. -/
def putRequest (body : String) : RegistryRequest := ⟨"/backends", "PUT", ascii body, false⟩

theorem registryAddress_local {bracketed : Bool} {body : String} (short : body.length ≤ 20)
    (names : Names (ascii body) bracketed localEndpoint) :
    registryAddress (fun _ => none) (putRequest body) =
      .ok (storedAddress bracketed localEndpoint) := by
  refine (registryAddress_eq_ok_iff _).mpr ⟨rfl, ?_, bracketed, localEndpoint, names, by decide,
    by decide, rfl⟩
  have size : (putRequest body).body.length = body.length := by
    rw [putRequest, ascii, List.length_map, String.length_toList]
  rw [size]
  exact short.trans (by decide)

theorem storedAddress_plain : storedAddress false localEndpoint = ascii "127.0.0.1:8088" := by
  decide

theorem storedAddress_brackets :
    storedAddress true localEndpoint = ascii "[127.0.0.1]:8088" := by
  decide

theorem names_plain : Names (ascii "127.0.0.1:8088") false localEndpoint := by
  rw [← storedAddress_plain]
  exact names_storedAddress false (by decide)

theorem names_signed : Names (ascii "127.0.0.1:+08088") false localEndpoint :=
  ⟨ascii "+08088", trimSpace_of_printable (List.all_iff_forall_prop.mp (by decide)), by decide⟩

theorem names_brackets : Names (ascii "[127.0.0.1]:8088") true localEndpoint := by
  rw [← storedAddress_brackets]
  exact names_storedAddress true (by decide)

theorem advertisedAddress_any :
    advertisedAddress "0.0.0.0".toList 8088 = .ok "127.0.0.1:8088".toList := by
  have accepted : inetPton "127.0.0.1".toList = some ⟨127, 0, 0, 1⟩ :=
    dottedQuad_eq_some_iff.mpr (by decide)
  simp only [advertisedAddress, if_true, accepted]
  decide

/-- A port may be written with a sign and a leading zero. An address that is advertised for all
interfaces is the local one. -/
theorem registry_canonical_iff_signed :
    ((goString (storedAddress false localEndpoint) = goString (storedAddress false localEndpoint) ↔
          SameEndpoint (ascii "127.0.0.1:8088") (ascii "127.0.0.1:+08088")) ↔
        (SameEndpoint (ascii "127.0.0.1:8088") (ascii "127.0.0.1:+08088") →
          (Bracketed (ascii "127.0.0.1:8088") ↔ Bracketed (ascii "127.0.0.1:+08088")))) ∧
      ∃ put, updateRegistry "127.0.0.1:8088".toList "PUT" = some put ∧
        registryAddress (fun _ => none) put = .ok put.body := by
  obtain ⟨canonical, -, advertised⟩ := registry_canonical_iff fun _ => none
  obtain ⟨put, delete, sent, -, accepted, -⟩ := advertised "0.0.0.0".toList _ 8088 (by decide)
    (by decide) advertisedAddress_any
  exact ⟨canonical (putRequest "127.0.0.1:8088") (putRequest "127.0.0.1:+08088") _ _
    (registryAddress_local (by decide) names_plain)
    (registryAddress_local (by decide) names_signed),
    put, sent, accepted⟩

/-- **Brackets register an endpoint twice.** Both bodies are accepted and name the same endpoint,
and they are stored under two strings. -/
theorem brackets_register_twice :
    registryAddress (fun _ => none) (putRequest "127.0.0.1:8088") = .ok (ascii "127.0.0.1:8088") ∧
      registryAddress (fun _ => none) (putRequest "[127.0.0.1]:8088") =
        .ok (ascii "[127.0.0.1]:8088") ∧
      ¬ (goString (ascii "127.0.0.1:8088") = goString (ascii "[127.0.0.1]:8088") ↔
        SameEndpoint (putRequest "127.0.0.1:8088").body (putRequest "[127.0.0.1]:8088").body) := by
  rw [← storedAddress_plain, ← storedAddress_brackets, goString_injective.eq_iff]
  refine ⟨registryAddress_local (by decide) names_plain,
    registryAddress_local (by decide) names_brackets, ?_⟩
  intro canonical
  have same := canonical.mpr ((sameEndpoint_iff names_plain names_brackets).mpr rfl)
  exact absurd (storedAddress_inj same).1 (by decide)

end InfraFromScratch.Stack
