/-!
# Stages

A pipeline runs its rules stage by stage. Some stages only correct what a broader earlier stage did,
so their order is part of the result.
-/

namespace ModelLoading.Edit

/-- A stage of a pipeline. -/
inductive Stage where
  | header
  | classSignature
  | namespaces
  | genericConstraints
  | literalConstructs
  | arrayTypes
  | casts
  | domainArrays
  | enumArrays
  | setterArguments
  | castSweep
  | assetReferences
  deriving DecidableEq, Repr

namespace Stage

/-- The stages in the order in which they run. -/
def all : List Stage :=
  [header, classSignature, namespaces, genericConstraints, literalConstructs, arrayTypes, casts,
    domainArrays, enumArrays, setterArguments, castSweep, assetReferences]

/-- The place of a stage in the order. -/
def rank : Stage → Nat
  | header => 0
  | classSignature => 1
  | namespaces => 2
  | genericConstraints => 3
  | literalConstructs => 4
  | arrayTypes => 5
  | casts => 6
  | domainArrays => 7
  | enumArrays => 8
  | setterArguments => 9
  | castSweep => 10
  | assetReferences => 11

instance : LE Stage := ⟨fun a b => a.rank ≤ b.rank⟩

instance : LT Stage := ⟨fun a b => a.rank < b.rank⟩

instance (a b : Stage) : Decidable (a ≤ b) := inferInstanceAs (Decidable (a.rank ≤ b.rank))

instance (a b : Stage) : Decidable (a < b) := inferInstanceAs (Decidable (a.rank < b.rank))

/-- The name of a stage in messages. -/
def name : Stage → String
  | header => "Header"
  | classSignature => "ClassSignature"
  | namespaces => "Namespaces"
  | genericConstraints => "GenericConstraints"
  | literalConstructs => "LiteralConstructs"
  | arrayTypes => "ArrayTypes"
  | casts => "Casts"
  | domainArrays => "DomainArrays"
  | enumArrays => "EnumArrays"
  | setterArguments => "SetterArguments"
  | castSweep => "CastSweep"
  | assetReferences => "AssetReferences"

/-- The name of a stage in reports. -/
def label : Stage → String
  | header => "header"
  | classSignature => "class_signature"
  | namespaces => "namespaces"
  | genericConstraints => "generic_constraints"
  | literalConstructs => "literal_constructs"
  | arrayTypes => "array_types"
  | casts => "casts"
  | domainArrays => "domain_arrays"
  | enumArrays => "enum_arrays"
  | setterArguments => "setter_arguments"
  | castSweep => "cast_sweep"
  | assetReferences => "asset_references"

end Stage

end ModelLoading.Edit
