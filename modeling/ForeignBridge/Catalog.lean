import ForeignBridge.Template

/-! # The catalog

The foreign type families that the bridge knows. Their order here does not matter for registration, which follows the
dependencies. -/

namespace ForeignBridge.Catalog

open Template

/-- The element types over which the numeric containers have instances. -/
def numeric : List String := ["Int", "Integer", "Rational", "Float"]

/-- A container of one parameter with an instance over each numeric element type. -/
def numericContainer (family foreignName : String) : Template :=
  (generic family foreignName 1).withInstances (numeric.map fun element => s!"{family}<{element}>")

/-- Every template, element types first. -/
def templates : List Template := [
  scalar "Int" "long",
  scalar "Float" "double",
  scalar "Bool" "bool",
  scalar "String" "std::string",
  scalar "Integer" "pm::Integer",
  (scalar "Rational" "pm::Rational").requiring ["Integer"],
  ((scalar "MinTropical" "pm::TropicalNumber<pm::Min,pm::Rational>").requiring ["Rational"]).sinceVersion ">=3.0",
  ((scalar "MaxTropical" "pm::TropicalNumber<pm::Max,pm::Rational>").requiring ["Rational"]).sinceVersion ">=3.0",
  scalar "NonSymmetric" "pm::NonSymmetric",
  scalar "Symmetric" "pm::Symmetric",
  scalar "BigObject" "pm::perl::BigObject",
  (generic "Pair" "std::pair" 2).withInstances ["Pair<Int,Int>", "Pair<Integer,Int>"],
  (generic "Set" "pm::Set" 1).withInstances ["Set<Int>", "Set<Set<Int>>"],
  (generic "List" "std::list" 1).withInstances ["List<Pair<Int,Int>>"],
  (generic "Array" "pm::Array" 1).withInstances [
    "Array<Int>", "Array<Integer>", "Array<Rational>", "Array<String>", "Array<Set<Int>>", "Array<Array<Int>>",
    "Array<Pair<Int,Int>>", "Array<BigObject>"],
  numericContainer "Vector" "pm::Vector",
  numericContainer "SparseVector" "pm::SparseVector",
  numericContainer "Matrix" "pm::Matrix",
  numericContainer "SparseMatrix" "pm::SparseMatrix",
  (generic "IncidenceMatrix" "pm::IncidenceMatrix" 1).withInstances [
    "IncidenceMatrix<NonSymmetric>", "IncidenceMatrix<Symmetric>"],
  (generic "Map" "pm::Map" 2).withInstances ["Map<String,String>", "Map<String,Int>", "Map<Int,Int>"],
  (generic "Polynomial" "pm::Polynomial" 2).withInstances ["Polynomial<Rational,Int>", "Polynomial<Integer,Int>"],
  (((extension "ArrayPolynomial" "Array").requiring ["Polynomial"]).sinceVersion ">=4.0").withInstances [
    "Array<Polynomial<Rational,Int>>", "Array<Polynomial<Integer,Int>>"]]

/-- The template of a family. -/
def find? (family : String) : Option Template := templates.find? (·.family == family)

/-- The foreign names of the families, without the given ones and without extensions. -/
def foreignNames (without : List String) : List String :=
  (templates.filter fun t => !t.isExtension && !without.contains t.family).map Template.foreignName

end ForeignBridge.Catalog
