import SemanticHighlight.Report.Failure
import SemanticHighlight.Server.Languages

/-!
# The lifetime of a server

A server speaks to its editor over standard streams or over a socket until the transport ends, in
one way or another, and then cleans up.
-/

namespace SemanticHighlight

inductive Transport where
  | streams
  | socket (host : Text) (port : Int)
  deriving DecidableEq, Repr

inductive TransportEnd where
  | finished
  | interrupted
  | brokenPipe
  | endOfInput
  | failed (e : Failure)
  deriving DecidableEq, Repr

namespace Transport

def name : Transport → Text
  | streams => "IO"
  | socket .. => "TCP"

def startText : Transport → Text
  | streams => "Starting LSP IO server..."
  | socket host port =>
    "Starting LSP TCP server on " ++ host ++ ":" ++ Text.ofInt port ++ "..."

end Transport

namespace TransportEnd

/-- What is logged about the end of a transport; a failure is for others to report. -/
def entryText? (transport : Transport) : TransportEnd → Option Text
  | finished => some ("LSP " ++ transport.name ++ " server finished")
  | interrupted => some "Received shutdown signal"
  | brokenPipe => some "Broken pipe - client disconnected"
  | endOfInput => some "EOF - no more input from client"
  | failed _ => none

def failure? : TransportEnd → Option Failure
  | failed e => some e
  | _ => none

end TransportEnd

namespace Server

variable {World Grammar Query : Type}

def serve (transport : Transport) (ending : TransportEnd) : Serving World Grammar Query Unit := do
  Serving.report .info .server "Starting Treelight LSP Server..."
  Serving.report .info .server transport.startText
  match ending.entryText? transport with
  | some message => Serving.report .info .server message
  | none => pure ()
  Serving.report .info .server "Shutting down Treelight LSP Server..."
  cleanUp

end Server

namespace Failure

def ofUri (e : UriError) : Failure :=
  match e with
  | .unencodable _ => internal "UnicodeEncodeError" e.message
  | _ => internal "ValueError" e.message

def ofServer : ServerError → Failure
  | .notInitialized => internal "RuntimeError" ServerError.notInitializedText
  | .address e => ofUri e
  | .reading e => ofReading e
  | .loading e => ofLoading e
  | .highlight e => ofHighlight e
  | .unknownType e => ofUnknownType e

end Failure

end SemanticHighlight
