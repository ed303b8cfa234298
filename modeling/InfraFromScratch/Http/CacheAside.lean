import InfraFromScratch.Http.Application
import InfraFromScratch.Http.CacheClient

/-!
# The cached response of the HTTP server

`respond_with_cache` in `http-server/server.py`: one route is looked up in the cache first and
stored there after a miss, without the newline at its end. Each of the two commands goes over
a connection of its own.
-/

set_option autoImplicit false

namespace InfraFromScratch.Http

open Foundations

namespace Server

/-- `CACHE_KEY`. -/
def cacheKey : String := "http:/hello"

/-- `CACHE_TTL`. -/
def cacheTtl : Int := 60

/-- What the cache sends back on the connections of one `respond_with_cache`. -/
structure CachePeers where
  onGet : Bytes → Option Bytes
  onSet : Bytes → Option Bytes

/-- The request is for the cached route. -/
def isCached (request : Request) : Bool :=
  request.method = "GET".toList && request.target = "/hello".toList

/-- The body as it is stored, without a newline at its end. -/
def cacheValue (body : Bytes) : Bytes := if body.getLast? = some lf then body.dropLast else body

/-- `respond_with_cache`. -/
def respondWithCache (table : Routes) (cache : Option CachePeers) (request : Request) : Response :=
  match cache with
  | none => respond table request
  | some peers =>
      if ¬ isCached request then respond table request
      else
        match CacheClient.get peers.onGet cacheKey with
        | .error _ => respond table request
        | .ok (some cachedBody) => { status := "200 OK".toList, body := cachedBody ++ [lf] }
        | .ok none =>
            let response := respond table request
            match CacheClient.set peers.onSet cacheKey (cacheValue response.body) cacheTtl with
            | .error _ => response
            | .ok () => response

/-- The bytes that `set` passes to `_command`. -/
def setRequest (key : String) (value : Bytes) (ttl : Int) : Except CacheClient.CacheError Bytes :=
  match CacheClient.encodeKey key with
  | .error reason => .error reason
  | .ok encodedKey =>
      match CacheClient.encodeValue value with
      | .error reason => .error reason
      | .ok encodedValue =>
          if ¬ (0 ≤ ttl ∧ ttl ≤ CacheClient.ttlMax) then .error .invalidTtl
          else .ok (CacheClient.setCommand encodedKey ttl.toNat encodedValue)

/-! ## The response, by what `get` returns -/

variable {table : Routes} {peers : CachePeers} {request : Request}

theorem respondWithCache_of_other (other : isCached request = false) (cache : Option CachePeers) :
    respondWithCache table cache request = respond table request := by
  cases cache with
  | none => rfl
  | some peers => simp [respondWithCache, other]

theorem respondWithCache_of_error {reason : CacheClient.CacheError}
    (failed : CacheClient.get peers.onGet cacheKey = .error reason) :
    respondWithCache table (some peers) request = respond table request := by
  simp [respondWithCache, failed]

/-- After a miss the response does not depend on what becomes of `set`. -/
theorem respondWithCache_of_miss (missed : CacheClient.get peers.onGet cacheKey = .ok none) :
    respondWithCache table (some peers) request = respond table request := by
  simp only [respondWithCache, missed]
  split
  · rfl
  · split <;> rfl

theorem respondWithCache_of_hit (cached : isCached request = true) {body : Bytes}
    (hit : CacheClient.get peers.onGet cacheKey = .ok (some body)) :
    respondWithCache table (some peers) request =
      { status := "200 OK".toList, body := body ++ [lf] } := by
  simp [respondWithCache, cached, hit]

end Server

end InfraFromScratch.Http
