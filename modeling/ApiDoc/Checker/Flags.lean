/-!
# Flags

The checker classifies symbols, types and declarations by flags, several of which may hold at
once.  A `FlagSet` keeps them as bits; the position of a flag is its place in its enumeration, and
each enumeration knows the names under which its flags, and some groups of them, are written.
-/

namespace ApiDoc

/-- An enumeration of flags, with positions and written names. -/
class Flag (κ : Type) where
  /-- The position of a flag among the bits. -/
  position : κ → Nat
  /-- The written names of flags and of groups of flags. -/
  vocabulary : List (String × List κ)

/-- A set of flags of one enumeration. -/
structure FlagSet (κ : Type) where
  /-- The bits at the positions of the flags in the set. -/
  bits : Nat := 0
  deriving DecidableEq, Repr, Inhabited

namespace FlagSet

variable {κ : Type} [Flag κ]

/-- Whether a flag is in the set. -/
def has (s : FlagSet κ) (f : κ) : Bool := s.bits.testBit (Flag.position f)

/-- Whether one of some flags is in the set. -/
def hasAny (s : FlagSet κ) (fs : List κ) : Bool := fs.any s.has

/-- The set with one more flag. -/
def add (s : FlagSet κ) (f : κ) : FlagSet κ := ⟨s.bits ||| 1 <<< Flag.position f⟩

/-- The set of some flags. -/
def of (fs : List κ) : FlagSet κ := fs.foldl add ⟨0⟩

/-- The flags of either of two sets. -/
def union (s t : FlagSet κ) : FlagSet κ := ⟨s.bits ||| t.bits⟩

/-- The set that written names stand for. -/
def ofNames? (names : List String) : Option (FlagSet κ) :=
  (names.mapM fun name => (Flag.vocabulary : List (String × List κ)).lookup name).map
    fun groups => of groups.flatten

theorem has_union (s t : FlagSet κ) (f : κ) : (s.union t).has f = (s.has f || t.has f) := by
  simp [has, union, Nat.testBit_or]

theorem has_add (s : FlagSet κ) (f g : κ) :
    (s.add f).has g = (s.has g || decide (Flag.position f = Flag.position g)) := by
  simp [has, add, Nat.testBit_or, Nat.one_shiftLeft, Nat.testBit_two_pow]

theorem has_foldl_add (s : FlagSet κ) (fs : List κ) (f : κ) :
    (fs.foldl add s).has f =
      (s.has f || fs.any fun g => decide (Flag.position g = Flag.position f)) := by
  induction fs generalizing s with
  | nil => simp
  | cons g rest ih => rw [List.foldl_cons, ih, has_add, List.any_cons, Bool.or_assoc]

/-- The set of some flags has exactly the flags at their positions. -/
theorem has_of (fs : List κ) (f : κ) :
    (of fs).has f = fs.any fun g => decide (Flag.position g = Flag.position f) := by
  rw [of, has_foldl_add]
  simp [has]

end FlagSet

/-! ### Symbol flags -/

/-- What a symbol is declared as. -/
inductive SymbolFlag where
  | functionScopedVariable | blockScopedVariable | property | enumMember | function | classSymbol
  | interfaceSymbol | constEnum | regularEnum | valueModule | namespaceModule | typeLiteral
  | objectLiteral | method | constructor | getAccessor | setAccessor | signature | typeParameter
  | typeAlias | alias | prototype | optional
  deriving DecidableEq, Repr

/-- Several symbol flags at once. -/
abbrev SymbolFlags := FlagSet SymbolFlag

namespace SymbolFlag

/-- Variables of either scope. -/
def anyVariable : List SymbolFlag :=
  [.functionScopedVariable, .blockScopedVariable]

/-- Enumerations, constant or not. -/
def enumeration : List SymbolFlag :=
  [.regularEnum, .constEnum]

/-- Getters and setters. -/
def accessor : List SymbolFlag :=
  [.getAccessor, .setAccessor]

/-- Namespaces, with or without values. -/
def namespaceLike : List SymbolFlag :=
  [.valueModule, .namespaceModule]

instance : Flag SymbolFlag where
  position f := f.ctorIdx
  vocabulary :=
    [("FUNCTION_SCOPED_VARIABLE", [.functionScopedVariable]),
     ("BLOCK_SCOPED_VARIABLE", [.blockScopedVariable]), ("PROPERTY", [.property]),
     ("ENUM_MEMBER", [.enumMember]), ("FUNCTION", [.function]), ("CLASS", [.classSymbol]),
     ("INTERFACE", [.interfaceSymbol]), ("CONST_ENUM", [.constEnum]),
     ("REGULAR_ENUM", [.regularEnum]), ("VALUE_MODULE", [.valueModule]),
     ("NAMESPACE_MODULE", [.namespaceModule]), ("TYPE_LITERAL", [.typeLiteral]),
     ("OBJECT_LITERAL", [.objectLiteral]), ("METHOD", [.method]), ("CONSTRUCTOR", [.constructor]),
     ("GET_ACCESSOR", [.getAccessor]), ("SET_ACCESSOR", [.setAccessor]),
     ("SIGNATURE", [.signature]), ("TYPE_PARAMETER", [.typeParameter]),
     ("TYPE_ALIAS", [.typeAlias]), ("ALIAS", [.alias]), ("PROTOTYPE", [.prototype]),
     ("OPTIONAL", [.optional]), ("VARIABLE", anyVariable), ("ENUM", enumeration),
     ("ACCESSOR", accessor), ("NAMESPACE", namespaceLike)]

end SymbolFlag

/-! ### Type flags -/

/-- What shape a type has. -/
inductive TypeFlag where
  | any | unknown | string | number | boolean | enumType | bigInt | stringLiteral | numberLiteral
  | booleanLiteral | enumLiteral | bigIntLiteral | esSymbol | uniqueEsSymbol | void | undefined
  | null | never | typeParameter | object | union | intersection | index | indexedAccess
  | conditional | substitution | nonPrimitive | templateLiteral
  deriving DecidableEq, Repr

/-- Several type flags at once. -/
abbrev TypeFlags := FlagSet TypeFlag

namespace TypeFlag

/-- The built-in types. -/
def intrinsic : List TypeFlag :=
  [.any, .unknown, .string, .number, .boolean, .bigInt, .esSymbol, .void, .undefined, .null,
   .never, .nonPrimitive]

/-- String and number literals. -/
def stringOrNumberLiteral : List TypeFlag :=
  [.stringLiteral, .numberLiteral]

/-- Unions and intersections. -/
def unionOrIntersection : List TypeFlag :=
  [.union, .intersection]

instance : Flag TypeFlag where
  position f := f.ctorIdx
  vocabulary :=
    [("ANY", [.any]), ("UNKNOWN", [.unknown]), ("STRING", [.string]), ("NUMBER", [.number]),
     ("BOOLEAN", [.boolean]), ("ENUM", [.enumType]), ("BIG_INT", [.bigInt]),
     ("STRING_LITERAL", [.stringLiteral]), ("NUMBER_LITERAL", [.numberLiteral]),
     ("BOOLEAN_LITERAL", [.booleanLiteral]), ("ENUM_LITERAL", [.enumLiteral]),
     ("BIG_INT_LITERAL", [.bigIntLiteral]), ("ES_SYMBOL", [.esSymbol]),
     ("UNIQUE_ES_SYMBOL", [.uniqueEsSymbol]), ("VOID", [.void]), ("UNDEFINED", [.undefined]),
     ("NULL", [.null]), ("NEVER", [.never]), ("TYPE_PARAMETER", [.typeParameter]),
     ("OBJECT", [.object]), ("UNION", [.union]), ("INTERSECTION", [.intersection]),
     ("INDEX", [.index]), ("INDEXED_ACCESS", [.indexedAccess]), ("CONDITIONAL", [.conditional]),
     ("SUBSTITUTION", [.substitution]), ("NON_PRIMITIVE", [.nonPrimitive]),
     ("TEMPLATE_LITERAL", [.templateLiteral]), ("INTRINSIC", intrinsic),
     ("STRING_OR_NUMBER_LITERAL", stringOrNumberLiteral),
     ("UNION_OR_INTERSECTION", unionOrIntersection)]

end TypeFlag

/-! ### Object type flags -/

/-- What shape an object type has. -/
inductive ObjectFlag where
  | classType | interfaceType | reference | tuple | anonymous | mapped
  deriving DecidableEq, Repr

/-- Several object type flags at once. -/
abbrev ObjectFlags := FlagSet ObjectFlag

namespace ObjectFlag

/-- Classes and interfaces. -/
def classOrInterface : List ObjectFlag :=
  [.classType, .interfaceType]

instance : Flag ObjectFlag where
  position f := f.ctorIdx
  vocabulary :=
    [("CLASS", [.classType]), ("INTERFACE", [.interfaceType]), ("REFERENCE", [.reference]),
     ("TUPLE", [.tuple]), ("ANONYMOUS", [.anonymous]), ("MAPPED", [.mapped]),
     ("CLASS_OR_INTERFACE", classOrInterface)]

end ObjectFlag

/-! ### Modifier flags -/

/-- A modifier of a declaration. -/
inductive ModifierFlag where
  | exported | ambient | publicAccess | privateAccess | protectedAccess | static | readOnly
  | abstract | async | defaultExport | const | override
  deriving DecidableEq, Repr

/-- Several modifier flags at once. -/
abbrev ModifierFlags := FlagSet ModifierFlag

namespace ModifierFlag

instance : Flag ModifierFlag where
  position f := f.ctorIdx
  vocabulary :=
    [("EXPORT", [.exported]), ("AMBIENT", [.ambient]), ("PUBLIC", [.publicAccess]),
     ("PRIVATE", [.privateAccess]), ("PROTECTED", [.protectedAccess]), ("STATIC", [.static]),
     ("READONLY", [.readOnly]), ("ABSTRACT", [.abstract]), ("ASYNC", [.async]),
     ("DEFAULT", [.defaultExport]), ("CONST", [.const]), ("OVERRIDE", [.override])]

end ModifierFlag

/-! ### Declaration list flags -/

/-- How a list of variables is declared. -/
inductive NodeFlag where
  | letBinding | constBinding
  deriving DecidableEq, Repr

/-- Several declaration list flags at once. -/
abbrev NodeFlags := FlagSet NodeFlag

namespace NodeFlag

instance : Flag NodeFlag where
  position f := f.ctorIdx
  vocabulary :=
    [("LET", [.letBinding]), ("CONST", [.constBinding])]

end NodeFlag

end ApiDoc
