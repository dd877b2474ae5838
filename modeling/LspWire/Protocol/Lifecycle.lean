import LspWire.Protocol.Unions

/-!
# The life of a session

Initialization, and registration of capabilities later on.
-/

namespace LspWire.Protocol

def clientInfo : Decl := declareSince (.since 15) "ClientInfo" [
  .required "name" .str,
  .optional "version" .str]

def initializeParams : Decl := declare "InitializeParams" [
  .required "processId" (.orNull .int),
  .required "rootUri" (.orNull .str),
  ⟨"capabilities", .record .clientCapabilities, .blank .clientCapabilities, none, []⟩,
  .since (.since 15) "clientInfo" (.record .clientInfo),
  .since (.since 16) "locale" .str,
  .optional "rootPath" .str,
  .free "initializationOptions",
  .optional "trace" (.enumeration .traceValue),
  .since (.since 6) "workspaceFolders" (.list (.record .workspaceFolder)),
  .since (.since 15) "workDoneToken" progressToken]

def serverInfo : Decl := declareSince (.since 15) "ServerInfo" [
  .required "name" .str,
  .optional "version" .str]

def initializeResult : Decl := declare "InitializeResult" [
  .required "capabilities" (.record .serverCapabilities),
  .since (.since 15) "serverInfo" (.record .serverInfo)]

def initializeErrorCodes : EnumDecl := enumerate "InitializeErrorCodes" [
  .number "UNKNOWN_PROTOCOL_VERSION" 1]

def initializeError : Decl := declare "InitializeError" [
  .required "retry" .bool]

def initializedParams : Decl :=
  declare "InitializedParams" []

def registration : Decl := declare "Registration" [
  .required "id" .str,
  .required "method" .str,
  .free "registerOptions"]

def registrationParams : Decl := declare "RegistrationParams" [
  .required "registrations" (.list (.record .registration))]

def unregistration : Decl := declare "Unregistration" [
  .required "id" .str,
  .required "method" .str]

def unregistrationParams : Decl := declare "UnregistrationParams" [
  .required "unregisterations" (.list (.record .unregistration))]

end LspWire.Protocol
