/-!
# The vocabulary of a conversion

The names that the rules of a conversion are made from: the types that need special array handling,
and the words of the interop library in which the converted loader is expressed.
-/

namespace ModelLoading.Conversion

/-- Type names and interop words. -/
structure Vocabulary where
  /-- Reference types whose arrays become reference arrays. -/
  references : List String := ["Il2CppAssets.Scripts.Models.Towers.TargetType"]
  /-- Value types whose arrays become struct arrays. -/
  structs : List String := ["Il2CppAssets.Scripts.Simulation.SMath.Vector3"]
  /-- Enum types that keep native arrays. -/
  enums : List String :=
    ["Il2CppAssets.Scripts.Models.Towers.TowerModel.TowerSize",
      "Il2CppAssets.Scripts.Models.Map.AreaType",
      "Il2CppAssets.Scripts.Models.TowerSets.TowerSet"]
  /-- Asset reference types, which are made by the content factory. -/
  assetRefs : List String := ["SpriteReference", "PrefabReference", "AudioSourceReference"]
  /-- The namespace of the asset reference types. -/
  assetRefNamespace : String := "Il2CppAssets.Scripts.Utils"
  /-- The factory method; the name of an asset reference type follows it directly. -/
  assetFactory : String := "ModContent.Create"
  /-- The interop array of references. -/
  referenceArray : String := "Il2CppReferenceArray"
  /-- The interop array of values. -/
  structArray : String := "Il2CppStructArray"
  /-- The interop array of strings. -/
  stringArray : String := "Il2CppStringArray"
  /-- The constraint on generic reader methods. -/
  objectBase : String := "Il2CppObjectBase"
  /-- The base class of converted loaders. -/
  baseLoader : String := "ModByteLoader"
  /-- The interface that generated loaders declare. -/
  generatorInterface : String := "IGameModelLoader"
  deriving DecidableEq, Repr

namespace Vocabulary

/-- The interop array of references of a type. -/
def referenceArrayOf (v : Vocabulary) (element : String) : String :=
  s!"{v.referenceArray}<{element}>"

/-- The interop array of values of a type. -/
def structArrayOf (v : Vocabulary) (element : String) : String :=
  s!"{v.structArray}<{element}>"

/-- The full name of an asset reference type. -/
def assetRefPath (v : Vocabulary) (name : String) : String :=
  s!"{v.assetRefNamespace}.{name}"

/-- Whether a type is listed as an enum. -/
def isEnum (v : Vocabulary) (name : String) : Bool := v.enums.contains name

end Vocabulary

end ModelLoading.Conversion
