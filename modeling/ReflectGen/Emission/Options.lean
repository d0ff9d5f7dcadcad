import ReflectGen.Text.Basic

/-!
# Emission options

The names used in generated sources.  An option that is left empty takes its standard value when
a command is run; a caller of the library may use empty names.
-/

namespace ReflectGen

/-- The names used in generated sources. -/
structure EmitOptions where
  /-- What replaces the extensions of a source file in the name of its generated file. -/
  suffix : Text
  /-- What variable names start with. -/
  globalPrefix : Text
  /-- The namespace of the runtime library. -/
  nameSpace : Text
  /-- The function that hashes a type name. -/
  hashFunc : Text
  /-- The type of the identifier field. -/
  hashType : Text
  /-- The static member that is assigned for each type. -/
  idField : Text
  /-- Headers to include. -/
  includes : List Text
  deriving DecidableEq, Repr

namespace EmitOptions

/-- The options used when none are configured. -/
def standard : EmitOptions where
  suffix := lit "_reflection.cpp"
  globalPrefix := lit "g_rf_"
  nameSpace := lit "::vx"
  hashFunc := lit "::vx::murmurhash"
  hashType := lit "vx::hash_type"
  idField := lit "s_reflectionId"
  includes := []

instance : Inhabited EmitOptions := ⟨standard⟩

/-- The first text if it is not empty, otherwise the second. -/
def orElse (t fallback : Text) : Text := if t.isEmpty then fallback else t

/-- The options with standard values for those that are empty. -/
def withDefaults (o : EmitOptions) : EmitOptions where
  suffix := orElse o.suffix standard.suffix
  globalPrefix := orElse o.globalPrefix standard.globalPrefix
  nameSpace := orElse o.nameSpace standard.nameSpace
  hashFunc := orElse o.hashFunc standard.hashFunc
  hashType := orElse o.hashType standard.hashType
  idField := orElse o.idField standard.idField
  includes := o.includes

end EmitOptions

end ReflectGen
