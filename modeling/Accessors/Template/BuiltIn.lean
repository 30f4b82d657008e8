/-!
The templates that are used unless a directory with others is given: one for the first line of a generated
file, and one for the accessors of a field. Each is one text with places in it, which the template leaves open
and a generated file fills.
-/

namespace Accessors.Template.BuiltIn

/-- A place where a template shows a variable. -/
def slot (name : String) : String := "\x7b\x7b " ++ name ++ " \x7d\x7d"

/-- The first line of a generated file, with its places filled. -/
def headerWith (fill : String → String) : String :=
  "// @generated by accessor-gen for package `" ++ fill "package_name" ++ "` from `" ++ fill "source_file"
    ++ "`. Do not edit.\n"

/-- The two methods for a field, with the places filled. -/
def accessorsWith (fill : String → String) : String :=
  "impl" ++ fill "impl_generics" ++ " " ++ fill "struct_name" ++ fill "type_generics" ++ fill "where_clause"
    ++ " \x7b\n    pub fn get_" ++ fill "accessor_name" ++ "(&self) -> &" ++ fill "field_type"
    ++ " \x7b\n        &self." ++ fill "field_name"
    ++ "\n    \x7d\n\n    pub fn set_" ++ fill "accessor_name" ++ "(&mut self, val: " ++ fill "field_type"
    ++ ") \x7b\n        self." ++ fill "field_name" ++ " = val;\n    \x7d\n\x7d\n"

def header : String := headerWith slot

def accessors : String := accessorsWith slot

end Accessors.Template.BuiltIn
