import LspWire.Protocol.Unions

/-!
# Completion

Completion items and what clients and servers can do with them. Clients of versions before 3.15
send a plain flag for the support of tags.
-/

namespace LspWire.Protocol

def insertTextFormat : EnumDecl := enumerate "InsertTextFormat" [
  .number "PLAIN_TEXT" 1, .number "SNIPPET" 2]

def completionItemKind : EnumDecl := enumerate "CompletionItemKind" [
  .number "TEXT" 1, .number "METHOD" 2, .number "FUNCTION" 3, .number "CONSTRUCTOR" 4,
  .number "FIELD" 5, .number "VARIABLE" 6, .number "CLASS" 7, .number "INTERFACE" 8,
  .number "MODULE" 9, .number "PROPERTY" 10, .number "UNIT" 11, .number "VALUE" 12,
  .number "ENUM" 13, .number "KEYWORD" 14, .number "SNIPPET" 15, .number "COLOR" 16,
  .number "FILE" 17, .number "REFERENCE" 18, .number "FOLDER" 19, .number "ENUM_MEMBER" 20,
  .number "CONSTANT" 21, .number "STRUCT" 22, .number "EVENT" 23, .number "OPERATOR" 24,
  .number "TYPE_PARAMETER" 25]

def insertTextMode : EnumDecl := enumerateSince (.since 16) "InsertTextMode" [
  .number "AS_IS" 1, .number "ADJUST_INDENTATION" 2]

def completionItemTag : EnumDecl := enumerateSince (.since 15) "CompletionItemTag" [
  .number "DEPRECATED" 1]

def completionItemTagSupport : Decl := declareSince (.since 15) "CompletionItemTagSupport" [
  .required "valueSet" (.list (.openEnum .completionItemTag))]

def completionItemCapabilityResolveSupport : Decl :=
  declareSince (.since 16) "CompletionItemCapabilityResolveSupport" [
  .required "properties" (.list .str)]

def insertTextModeSupport : Decl := declareSince (.since 16) "InsertTextModeSupport" [
  .required "valueSet" (.list (.openEnum .insertTextMode))]

def completionItemCapability : Decl := declare "CompletionItemCapability" [
  .optional "snippetSupport" .bool,
  .optional "commitCharactersSupport" .bool,
  .optional "documentationFormat" (.list (.enumeration .markupKind)),
  .optional "deprecatedSupport" .bool,
  .optional "preselectSupport" .bool,
  ⟨"tagSupport", .recordOrFlag .completionItemTagSupport "tagSupport", .null, some (.since 15),
    []⟩,
  .since (.since 16) "insertReplaceSupport" .bool,
  .since (.since 16) "resolveSupport" (.record .completionItemCapabilityResolveSupport),
  .since (.since 16) "insertTextModeSupport" (.record .insertTextModeSupport)]

def completionItemKindCapability : Decl := declare "CompletionItemKindCapability" [
  .optional "valueSet" (.list (.openEnum .completionItemKind))]

def completionClientCapabilities : Decl := declare "CompletionClientCapabilities" [
  .optional "dynamicRegistration" .bool,
  .optional "completionItem" (.record .completionItemCapability),
  .optional "completionItemKind" (.record .completionItemKindCapability),
  .optional "contextSupport" .bool]

def insertReplaceEdit : Decl := declareSince (.since 16) "InsertReplaceEdit" [
  .required "newText" .str,
  .required "insert" (.record .range),
  .required "replace" (.record .range)]

def completionOptions : Decl := declare "CompletionOptions" [
  .optional "resolveProvider" .bool,
  .optional "triggerCharacters" (.list .str),
  .since (.since 2) "allCommitCharacters" (.list .str),
  .since (.since 15) "workDoneProgress" .bool]

def completionRegistrationOptions : Decl := declare "CompletionRegistrationOptions" [
  .optional "resolveProvider" .bool,
  .optional "triggerCharacters" (.list .str),
  .since (.since 2) "allCommitCharacters" (.list .str),
  .since (.since 15) "workDoneProgress" .bool,
  .required "documentSelector" (.orNull documentSelector)]

def completionTriggerKind : EnumDecl := enumerate "CompletionTriggerKind" [
  .number "INVOKED" 1, .number "TRIGGER_CHARACTER" 2,
  .number "TRIGGER_FOR_INCOMPLETE_COMPLETIONS" 3]

def completionContext : Decl := declare "CompletionContext" [
  .required "triggerKind" (.enumeration .completionTriggerKind),
  .optional "triggerCharacter" .str]

def completionParams : Decl := declare "CompletionParams" [
  .required "textDocument" (.record .textDocumentIdentifier),
  .required "position" (.record .position),
  .since (.since 15) "workDoneToken" progressToken,
  .since (.since 15) "partialResultToken" progressToken,
  .optional "context" (.record .completionContext)]

def completionItem : Decl := declare "CompletionItem" [
  .required "label" .str,
  .optional "kind" (.openEnum .completionItemKind),
  .since (.since 15) "tags" (.list (.openEnum .completionItemTag)),
  .optional "detail" .str,
  .optional "documentation" documentation,
  .optional "deprecated" .bool,
  .optional "preselect" .bool,
  .optional "sortText" .str,
  .optional "filterText" .str,
  .optional "insertText" .str,
  .optional "insertTextFormat" (.enumeration .insertTextFormat),
  .since (.since 16) "insertTextMode" (.enumeration .insertTextMode),
  .optional "textEdit" completionTextEdit,
  .optional "additionalTextEdits" (.list (.record .textEdit)),
  .optional "commitCharacters" (.list .str),
  .optional "command" (.record .command),
  .free "data"]

def completionList : Decl := declare "CompletionList" [
  .required "isIncomplete" .bool,
  .required "items" (.list (.record .completionItem))]

end LspWire.Protocol
