/-!
# Release
-/

namespace DeclOutline

/-- The version of the library. -/
def version : String :=
  "0.3.0"

end DeclOutline
