import DeclOutline.Json.Basic
import DeclOutline.Summary.Basic

/-!
# Summaries as JSON

The JSON form of a summary. Members come in a fixed order and are never left out: what is absent
is `null`.
-/

namespace DeclOutline

/-- An extent as JSON. -/
def Extent.toJson (e : Extent) : Json :=
  .object [("start", .number e.start), ("end", .number e.stop)]

/-- A section as JSON. -/
def SectionSummary.toJson (s : SectionSummary) : Json :=
  .object
    [("text", .string s.text),
     ("range", s.extent.toJson),
     ("has_name", .bool s.hasName),
     ("has_params", .bool s.hasList)]

/-- A parameter as JSON. -/
def ParameterSummary.toJson (p : ParameterSummary) : Json :=
  .object
    [("text", .string p.text),
     ("name", .ofText? p.name),
     ("base_type", .ofText? p.baseType),
     ("full_type", .ofText? p.fullType),
     ("type_implied", .bool p.typeIsImplied),
     ("default_value", .ofText? p.default),
     ("property_value", .ofText? p.property)]

namespace Summary

/-- A summary as JSON. -/
def toJson (s : Summary) : Json :=
  .object
    [("text", .string s.text),
     ("sections", .array (s.sections.map SectionSummary.toJson)),
     ("main_section", .number s.main),
     ("style", .string s.style.label),
     ("access_level", .string s.access.label),
     ("before_parameters", .ofText? s.beforeParameters),
     ("parameters", .array (s.parameters.map ParameterSummary.toJson)),
     ("after_parameters", .ofText? s.afterParameters)]

/-- The JSON text of a summary. -/
def render (s : Summary) : String :=
  s.toJson.render

end Summary

end DeclOutline
