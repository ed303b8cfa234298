import InfraFromScratch.Foundations.PythonText

/-!
# The application of the HTTP server

`http-server/application.py`: requests, responses and the table of routes. The table is a
parameter of `respond`, and `routes` is the table the program has.
-/

set_option autoImplicit false

namespace InfraFromScratch.Http

open Foundations

namespace Server

/-- `Request`. -/
structure Request where
  method : Text
  target : Text
  deriving DecidableEq, Repr

/-- `Response`. -/
structure Response where
  status : Text
  body : Bytes
  headers : List (Text × Text) := []
  deriving DecidableEq, Repr

/-- A table from targets to a status and a body. -/
abbrev Routes := List (Text × Text × Bytes)

/-- `ROUTES`. -/
def routes : Routes :=
  [("/".toList, "200 OK".toList, ascii "HELLO WORLD!\n"),
    ("/health".toList, "200 OK".toList, ascii "OK\n"),
    ("/hello".toList, "200 OK".toList, ascii "HELLO WORLD!\n")]

/-- `respond`. -/
def respond (table : Routes) (request : Request) : Response :=
  if request.method ≠ "GET".toList then
    { status := "405 Method Not Allowed".toList
      body := ascii "Method Not Allowed\n"
      headers := [("Allow".toList, "GET".toList)] }
  else
    let (status, body) :=
      (table.lookup request.target).getD ("404 Not Found".toList, ascii "Not Found\n")
    { status, body }

end Server

end InfraFromScratch.Http
