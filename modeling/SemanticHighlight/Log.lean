import SemanticHighlight.Text.Basic

/-!
# Log entries

What the highlighter reports beside its results. Entries are collected in order and written by
whoever runs it.
-/

namespace SemanticHighlight

inductive Severity where
  | debug
  | info
  | warning
  | error
  deriving DecidableEq, Repr

namespace Severity

def name : Severity → Text
  | debug => "DEBUG"
  | info => "INFO"
  | warning => "WARNING"
  | error => "ERROR"

def rank : Severity → Nat
  | debug => 0
  | info => 1
  | warning => 2
  | error => 3

end Severity

inductive LogSource where
  | configuration
  | captures
  | engine
  | injections
  | provider
  | registry
  | server
  | tokenService
  deriving DecidableEq, Repr

namespace LogSource

def name : LogSource → Text
  | configuration => "treelight.config.loader"
  | captures => "treelight.highlight.classifier"
  | engine => "treelight.highlight.engine"
  | injections => "treelight.highlight.injections"
  | provider => "treelight.highlight.provider"
  | registry => "treelight.highlight.registry"
  | server => "treelight.lsp.server"
  | tokenService => "treelight.lsp.features.semantic_tokens.semantic_tokens"

end LogSource

structure LogEntry where
  severity : Severity
  source : LogSource
  message : Text
  deriving DecidableEq, Repr

namespace LogEntry

/-- The entry as a line for a reader who knows where it comes from. -/
def brief (e : LogEntry) : Text := e.severity.name ++ ":" ++ e.message

def line (e : LogEntry) : Text := e.severity.name ++ ":" ++ e.source.name ++ ":" ++ e.message

end LogEntry

abbrev Log := List LogEntry

end SemanticHighlight
