/-!
# Version
-/

namespace DiagramFilter

/-- The version of the rule language and of the documents around it. -/
def version : String := "0.1.0"

end DiagramFilter
