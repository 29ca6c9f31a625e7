import NumericalMethods.Record

/-!
# Responses

The envelope of a result for callers that exchange text: either a result, or the
wording and the kind of an error.
-/

namespace NumericalMethods

/-- The outcome of an operation, ready to be written. -/
structure Response where
  error : Option String
  errorKind : Option ErrorKind
  result : Option Json

namespace Response

def ok (result : Json) : Response where
  error := none
  errorKind := none
  result := some result

def failed (reason : EngineError Float) : Response where
  error := some reason.message
  errorKind := some reason.kind
  result := none

/-- The response to an operation that always answers. -/
def ofResult : Except (EngineError Float) Json → Response
  | .ok result => ok result
  | .error reason => failed reason

def isOk (r : Response) : Bool :=
  r.error.isNone

/-- The record of a response.  A response without a result has no field
for it. -/
def toJson (r : Response) : Json :=
  .record <|
    [("error", .ofOption .text r.error),
      ("error_kind", .ofOption (fun kind => .text kind.name) r.errorKind)] ++
    match r.result with
    | some result => [("result", result)]
    | none => []

def text (r : Response) : String :=
  r.toJson.render

end Response
end NumericalMethods
