import SemanticHighlight.Language.Config

/-!
# Bindings

A loaded language: its grammar, its compiled queries and its mapping table.
-/

namespace SemanticHighlight

structure Binding (Grammar Query : Type) where
  lang : Text
  grammar : Grammar
  highlights : Query
  injections : Option Query
  mappings : Option MappingTable
  deriving DecidableEq, Repr

end SemanticHighlight
