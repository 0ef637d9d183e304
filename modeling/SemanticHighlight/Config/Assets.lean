import SemanticHighlight.Files.Path
import SemanticHighlight.Language.Config

/-!
# Asset paths

The grammar and the queries of a language are named by paths. A package reference stays as it is, a
path that starts at a home directory or at the root is absolute, and any other is seen from the root
of the workspace.
-/

namespace SemanticHighlight

/-- Why an asset path cannot be made absolute. -/
inductive AssetError where
  | noRoot (path : Text)
  | unknownHome (e : UnknownHome)
  deriving DecidableEq, Repr

def resolveAsset (homes : Homes) (root : Option Path) (path : Text) : Except AssetError Text :=
  if path.startsWith LanguageConfig.packageMark then .ok path
  else do
    let expanded ← ((Path.ofText path).expandHome homes).mapError .unknownHome
    if expanded.isAbsolute then return expanded.toText
    match root with
    | none => throw (.noRoot path)
    | some root => return (expanded.under root).toText

namespace LanguageConfig

def resolve (homes : Homes) (root : Option Path) (config : LanguageConfig) :
    Except AssetError LanguageConfig := do
  let parser ← resolveAsset homes root config.parser
  let highlights ← resolveAsset homes root config.highlights
  let injections ← config.injections.mapM (resolveAsset homes root)
  return { config with parser, highlights, injections }

end LanguageConfig

end SemanticHighlight
