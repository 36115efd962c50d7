import StatusList.Url.Form

/-!
# Requests

A *request* asks for something by a method and a target: a path, and perhaps a
query.
-/

namespace StatusList.Service

/-- What the service is asked. -/
structure Request where
  /-- What is to be done, in upper case. -/
  method : String
  /-- What it is to be done with. -/
  path : String
  /-- How, as a form. -/
  query : Option String
  deriving DecidableEq, Repr, Inhabited

namespace Request

/-- The path and the query of a target. What a fragment adds, and the scheme and
    the authority of a target that has them, are of no importance. -/
def splitTarget (target : List Char) : List Char × Option (List Char) :=
  let target := target.takeWhile (· ≠ '#')
  let path := target.takeWhile (· ≠ '?')
  let query := match target.dropWhile (· ≠ '?') with
    | [] => none
    | _ :: query => some query
  match path.dropWhile (fun c => c.isAlphanum || c ∈ ['+', '-', '.']) with
  | ':' :: '/' :: '/' :: rest => ('/' :: (rest.dropWhile (· ≠ '/')).tail, query)
  | _ => (path, query)

/-- The request of a method and a target. -/
def ofTarget (method target : String) : Request :=
  let (path, query) := splitTarget target.toList
  ⟨method, .ofList path, query.map .ofList⟩

/-- The values of a name in the query. -/
def valuesOf (r : Request) (name : String) : List String :=
  ((Url.Form.read (r.query.getD "")).filter (·.1 = name)).map Prod.snd

end Request

end StatusList.Service
