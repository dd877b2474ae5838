import LspWire.Protocol.Unions

/-!
# The window

Messages and documents that the client shows. The properties of an action stand beside its title.
-/

namespace LspWire.Protocol

def messageType : EnumDecl := enumerate "MessageType" [
  .number "ERROR" 1, .number "WARNING" 2, .number "INFO" 3, .number "LOG" 4,
  .number "DEBUG" 5 (some (.since 18))]

def showMessageParams : Decl := declare "ShowMessageParams" [
  .required "type" (.enumeration .messageType) [.stable],
  .required "message" .str]

def logMessageParams : Decl := declare "LogMessageParams" [
  .required "type" (.enumeration .messageType) [.stable],
  .required "message" .str]

def messageActionItem : Decl :=
  ⟨"MessageActionItem", none,
    .spread (.required "title" .str) "properties" (some (.since 16 true))
      messageActionItemProperty⟩

def showMessageRequestParams : Decl := declare "ShowMessageRequestParams" [
  .required "type" (.enumeration .messageType) [.stable],
  .required "message" .str,
  .optional "actions" (.list (.record .messageActionItem))]

def messageActionItemCapabilities : Decl :=
  declareSince (.since 16) "MessageActionItemCapabilities" [
  .optional "additionalPropertiesSupport" .bool]

def showMessageRequestClientCapabilities : Decl :=
  declareSince (.since 16) "ShowMessageRequestClientCapabilities" [
  .optional "messageActionItem" (.record .messageActionItemCapabilities)]

def showDocumentClientCapabilities : Decl :=
  declareSince (.since 16) "ShowDocumentClientCapabilities" [
  .required "support" .bool]

def showDocumentParams : Decl := declareSince (.since 16) "ShowDocumentParams" [
  .required "uri" .str,
  .optional "external" .bool,
  .optional "takeFocus" .bool,
  .optional "selection" (.record .range)]

def showDocumentResult : Decl := declareSince (.since 16) "ShowDocumentResult" [
  .required "success" .bool]

def windowClientCapabilities : Decl := declare "WindowClientCapabilities" [
  .since (.since 15) "workDoneProgress" .bool,
  .since (.since 16) "showMessage" (.record .showMessageRequestClientCapabilities),
  .since (.since 16) "showDocument" (.record .showDocumentClientCapabilities)]

end LspWire.Protocol
