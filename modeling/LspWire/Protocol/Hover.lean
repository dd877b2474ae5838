import LspWire.Protocol.Unions

/-!
# Hovers and signatures

What is shown about the text under the cursor.
-/

namespace LspWire.Protocol

def hoverParams : Decl := declare "HoverParams" [
  .required "textDocument" (.record .textDocumentIdentifier),
  .required "position" (.record .position),
  .since (.since 15) "workDoneToken" progressToken]

def hover : Decl := declare "Hover" [
  .required "contents" (.union [.record .markupContent, .str, .record .languageString,
    .list markedString]),
  .optional "range" (.record .range)]

def hoverClientCapabilities : Decl := declare "HoverClientCapabilities" [
  .optional "dynamicRegistration" .bool,
  .optional "contentFormat" (.list (.enumeration .markupKind))]

def hoverOptions : Decl := declare "HoverOptions" [
  .since (.since 15) "workDoneProgress" .bool]

def signatureHelpTriggerKind : EnumDecl := enumerateSince (.since 15) "SignatureHelpTriggerKind" [
  .number "INVOKED" 1, .number "TRIGGER_CHARACTER" 2, .number "CONTENT_CHANGE" 3]

def parameterInformation : Decl := declare "ParameterInformation" [
  .required "label" (.union [.str, .list .int]),
  .optional "documentation" documentation]

def signatureInformation : Decl := declare "SignatureInformation" [
  .required "label" .str,
  .optional "documentation" documentation,
  .optional "parameters" (.list (.record .parameterInformation)),
  .since (.since 16) "activeParameter" .int]

def signatureHelp : Decl := declare "SignatureHelp" [
  .required "signatures" (.list (.record .signatureInformation)),
  .optional "activeSignature" .int,
  .optional "activeParameter" .int]

def signatureHelpContext : Decl := declareSince (.since 15) "SignatureHelpContext" [
  .required "triggerKind" (.enumeration .signatureHelpTriggerKind),
  .required "isRetrigger" .bool,
  .optional "triggerCharacter" .str,
  .optional "activeSignatureHelp" (.record .signatureHelp)]

def signatureHelpParams : Decl := declare "SignatureHelpParams" [
  .required "textDocument" (.record .textDocumentIdentifier),
  .required "position" (.record .position),
  .since (.since 15) "workDoneToken" progressToken,
  .since (.since 15) "context" (.record .signatureHelpContext)]

def signatureHelpOptions : Decl := declare "SignatureHelpOptions" [
  .optional "triggerCharacters" (.list .str),
  .since (.since 15) "retriggerCharacters" (.list .str),
  .since (.since 15) "workDoneProgress" .bool]

def parameterInformationCapability : Decl := declare "ParameterInformationCapability" [
  .optional "labelOffsetSupport" .bool]

def signatureInformationCapability : Decl := declare "SignatureInformationCapability" [
  .optional "documentationFormat" (.list (.enumeration .markupKind)),
  .optional "parameterInformation" (.record .parameterInformationCapability),
  .since (.since 16) "activeParameterSupport" .bool]

def signatureHelpClientCapabilities : Decl := declare "SignatureHelpClientCapabilities" [
  .optional "dynamicRegistration" .bool,
  .optional "signatureInformation" (.record .signatureInformationCapability),
  .since (.since 15) "contextSupport" .bool]

end LspWire.Protocol
