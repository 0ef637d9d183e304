import SemanticHighlight.Server.Basic

/-!
# Highlighting open documents

A server answers a request for the tokens of a document with the numbers of the token stream. There
is no answer for a language that is not offered, and none if highlighting fails in a way that it may.
-/

namespace SemanticHighlight.Server

variable {World Grammar Query : Type}

def documents : Serving World Grammar Query (List (Text × Document)) := do
  match (← get).documents with
  | some documents => return documents
  | none => throw .notInitialized

def openDocument (uri : Text) (document : Document) : Serving World Grammar Query Unit := do
  let known ← documents
  let _ ← Serving.ofAddress (Uri.ofText uri)
  modify fun s => { s with documents := some ((uri, document) :: known) }

/-- The numbers of the token stream of a text, or why there are none. -/
def streamOf (server : Server World Grammar Query) (document : Document) :
    Serving World Grammar Query (Except HighlightError (List Int)) := do
  match ← Serving.onSession (server.provider.highlight document.lang document.text).run with
  | .error e => if e.isForeign then throw (.highlight e) else return .error e
  | .ok tokens =>
    let index := LineIndex.ofText document.text
    match Token.encode server.provider.legend (some index) tokens with
    | .ok data => return .ok data
    | .error e => throw (.unknownType e)

/-- The language of a document that was not opened is not known. -/
def langText (document : Option Document) : Text := (document.map Document.lang).getD "None"

/-- The document under an address, if its language is offered for whole documents. -/
def served? (s : ServerState World Grammar Query) (document : Option Document) : Option Document :=
  document.filter fun d => d.lang ≠ [] && s.session.registry.provides d.lang

def answer (server : Server World Grammar Query) (uri : Text) (document : Option Document) :
    Serving World Grammar Query (Option (List Int)) := do
  match served? (← get) document with
  | none =>
    Serving.report .debug .tokenService
      ("No highlighting for language '" ++ langText document ++ "' of " ++ uri)
    return none
  | some document =>
    match ← server.streamOf document with
    | .error e =>
      Serving.report .error .tokenService
        ("Error generating semantic tokens for " ++ uri ++ ": " ++ e.message)
      return none
    | .ok data =>
      Serving.report .debug .tokenService
        ("Returning semantic tokens with " ++ Text.ofNat data.length ++ " data points")
      return some data

/-- Answers a request for the tokens of a document. A token service that is attached to no server
knows no documents. -/
def tokens (server : Server World Grammar Query) (uri : Text) (attached : Bool) :
    Serving World Grammar Query (Option (List Int)) := do
  Serving.report .debug .tokenService ("Semantic tokens request received for " ++ uri)
  if !attached then
    Serving.report .error .tokenService
      "Server not set - register_semantic_tokens must be called first"
    return none
  let document := (← documents).lookup uri
  if document.isNone then
    let _ ← Serving.ofAddress (Uri.ofText uri)
  server.answer uri document

end SemanticHighlight.Server
