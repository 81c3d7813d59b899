/-
  VcxProver.Filters

  `_filter_proof_requests_by_name` (filters.rs). The request type is a
  parameter, given with the two operations the filter applies to requests:
  the deserialisation of the array, and the decoding of a request's attachment
  (`request_presentations_attach.content().ok()`). A request is kept when its
  attachment parses and the name read from it equals the target. The code
  reads a missing, non-string or non-object `name` as the empty string. So a
  non-empty target keeps exactly the requests whose attachment carries that
  string as its `name`. The empty target also keeps every request whose
  attachment parses without a string `name`.
-/
import VcxProver.Types

namespace VcxProver

/-- `value.get("name").unwrap_or(&Value::Null).as_str().unwrap_or("")` -/
def attachmentName (value : Json) : String := ((value.get "name").getD .null).asStr.getD ""

/-- `_filter_proof_requests_by_name` -/
def filterProofRequestsByName {PR : Type} (parseRequests : String → Except String (List PR))
    (content : PR → Option String) (parser : JsonParser) (requests matchName : String) :
    Except VcxError (List PR) := do
  let presentationRequests ← (parseRequests requests).mapError fun err =>
    .fromMsg .invalidJson
      ("Failed to deserialize Vec<PresentationRequest>: " ++ requests ++ "\nObtained error: " ++ err)
  pure (presentationRequests.filterMap fun presentationRequest =>
    match content presentationRequest with
    | some attachment =>
      match (parser.parse attachment).map attachmentName with
      | .ok name => if name = matchName then some presentationRequest else none
      | .error _ => none
    | none => none)

section Names

variable {PR : Type} (content : PR → Option String) (parser : JsonParser)

/-- The name the code reads from a request, when its attachment decodes and parses. -/
def readName (pr : PR) : Option String :=
  (content pr).bind fun attachment => (parser.parse attachment).toOption.map attachmentName

/-- The request's name as the spec reads it: the attachment decodes and parses,
    and its top-level `name` is present and a string. -/
def declaredName (pr : PR) : Option String :=
  (content pr).bind fun attachment =>
    (parser.parse attachment).toOption.bind fun value => (value.get "name").bind Json.asStr

theorem filterProofRequestsByName_eq (parseRequests : String → Except String (List PR))
    (requests matchName : String) :
    filterProofRequestsByName parseRequests content parser requests matchName =
      match parseRequests requests with
      | .ok l => .ok (l.filter fun pr => readName content parser pr = some matchName)
      | .error err => .error (.fromMsg .invalidJson
          ("Failed to deserialize Vec<PresentationRequest>: " ++ requests ++
            "\nObtained error: " ++ err)) := by
  unfold filterProofRequestsByName
  cases parseRequests requests with
  | error err => rfl
  | ok l =>
    show Except.ok _ = Except.ok _
    rw [← List.filterMap_eq_filter]
    congr 1
    refine List.filterMap_congr fun pr _ => ?_
    simp only [Option.guard, readName]
    split
    · next attachment hc =>
      rcases hp : parser.parse attachment with err | value <;>
        simp [hc, hp, Except.map, Except.toOption, eq_comm]
    · next hc => simp [hc]

/-- For a non-empty target the code's name and the spec's agree. -/
theorem readName_eq_iff_declaredName {pr : PR} {n : String} (hn : n ≠ "") :
    readName content parser pr = some n ↔ declaredName content parser pr = some n := by
  unfold readName declaredName
  rcases content pr with _ | attachment
  · simp
  rcases hp : parser.parse attachment with err | value
  · simp [hp, Except.toOption]
  simp only [hp, Option.some_bind, Except.toOption, Option.map_some', Option.some.injEq,
    attachmentName]
  rcases value.get "name" with _ | j
  · simp [Json.asStr, Ne.symm hn]
  rcases hs : j.asStr with _ | s <;> simp [hs, Ne.symm hn]

end Names

/-- With a non-empty target the filter keeps, in order, exactly the requests
    whose attachment decodes, parses and has a string `name` equal to the
    target. -/
theorem filterProofRequestsByName_of_ne_empty {PR : Type}
    (parseRequests : String → Except String (List PR)) (content : PR → Option String)
    (parser : JsonParser) (requests matchName : String) (hn : matchName ≠ "") :
    filterProofRequestsByName parseRequests content parser requests matchName =
      match parseRequests requests with
      | .ok l => .ok (l.filter fun pr => declaredName content parser pr = some matchName)
      | .error err => .error (.fromMsg .invalidJson
          ("Failed to deserialize Vec<PresentationRequest>: " ++ requests ++
            "\nObtained error: " ++ err)) := by
  rw [filterProofRequestsByName_eq]
  split
  · exact congrArg Except.ok (List.filter_congr fun pr _ => by
      simp only [readName_eq_iff_declaredName content parser hn])
  · rfl

/-- Every array reads as one request, whose attachment is the empty object. -/
def namelessRequests (_ : String) : Except String (List String) := .ok ["{}"]

/-- A parser that knows the empty object. -/
def emptyObjectParser : JsonParser := .ofTable [("{}", .object [])] (by decide)

theorem namelessRequests_named_request1 :
    "request1" ≠ "" ∧
      filterProofRequestsByName namelessRequests some emptyObjectParser "requests" "request1" =
        .ok (["{}"].filter fun pr => declaredName some emptyObjectParser pr = some "request1") :=
  ⟨by decide, filterProofRequestsByName_of_ne_empty namelessRequests some emptyObjectParser
    "requests" "request1" (by decide)⟩

/-- The empty target keeps a request whose attachment has no `name`. -/
theorem nameless_attachment_matches_empty_name :
    filterProofRequestsByName namelessRequests some emptyObjectParser "requests" "" = .ok ["{}"] ∧
      declaredName some emptyObjectParser "{}" = none :=
  ⟨rfl, rfl⟩

end VcxProver
