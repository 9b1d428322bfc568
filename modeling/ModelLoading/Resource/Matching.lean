/-!
# Matching of resource names

How the name of a bytes file selects a resource.
-/

namespace ModelLoading.Resource

/-- How the name of a bytes file selects a resource. -/
inductive Matching where
  /-- The name of the resource ends with the name of the file. -/
  | suffix
  /-- The two names are the same. -/
  | exact
  deriving DecidableEq, Repr

/-- Whether the name of a file selects a resource. -/
def Matching.selects (m : Matching) (resource file : String) : Bool :=
  match m with
  | suffix => file.toList.isSuffixOf resource.toList
  | exact => resource == file

end ModelLoading.Resource
