import LspWire.Protocol.Unions

/-!
# Navigation

Definitions, references, highlights and symbols. A symbol of a document may hold symbols.
-/

namespace LspWire.Protocol

def definitionParams : Decl := declare "DefinitionParams" [
  .required "textDocument" (.record .textDocumentIdentifier),
  .required "position" (.record .position),
  .since (.since 15) "workDoneToken" progressToken,
  .since (.since 15) "partialResultToken" progressToken]

def typeDefinitionParams : Decl := declare "TypeDefinitionParams" [
  .required "textDocument" (.record .textDocumentIdentifier),
  .required "position" (.record .position),
  .since (.since 15) "workDoneToken" progressToken,
  .since (.since 15) "partialResultToken" progressToken]

def implementationParams : Decl := declare "ImplementationParams" [
  .required "textDocument" (.record .textDocumentIdentifier),
  .required "position" (.record .position),
  .since (.since 15) "workDoneToken" progressToken,
  .since (.since 15) "partialResultToken" progressToken]

def gotoCapability : Decl := declare "GotoCapability" [
  .optional "dynamicRegistration" .bool,
  .since (.since 14) "linkSupport" .bool]

def referenceContext : Decl := declare "ReferenceContext" [
  .required "includeDeclaration" .bool]

def referenceParams : Decl := declare "ReferenceParams" [
  .required "textDocument" (.record .textDocumentIdentifier),
  .required "position" (.record .position),
  .required "context" (.record .referenceContext),
  .since (.since 15) "workDoneToken" progressToken,
  .since (.since 15) "partialResultToken" progressToken]

def documentHighlightParams : Decl := declare "DocumentHighlightParams" [
  .required "textDocument" (.record .textDocumentIdentifier),
  .required "position" (.record .position),
  .since (.since 15) "workDoneToken" progressToken,
  .since (.since 15) "partialResultToken" progressToken]

def documentHighlightKind : EnumDecl := enumerate "DocumentHighlightKind" [
  .number "TEXT" 1, .number "READ" 2, .number "WRITE" 3]

def documentHighlight : Decl := declare "DocumentHighlight" [
  .required "range" (.record .range),
  .optional "kind" (.enumeration .documentHighlightKind)]

def documentHighlightOptions : Decl := declare "DocumentHighlightOptions" [
  .since (.since 15) "workDoneProgress" .bool]

def symbolKind : EnumDecl := enumerate "SymbolKind" [
  .number "FILE" 1, .number "MODULE" 2, .number "NAMESPACE" 3, .number "PACKAGE" 4,
  .number "CLASS" 5, .number "METHOD" 6, .number "PROPERTY" 7, .number "FIELD" 8,
  .number "CONSTRUCTOR" 9, .number "ENUM" 10, .number "INTERFACE" 11, .number "FUNCTION" 12,
  .number "VARIABLE" 13, .number "CONSTANT" 14, .number "STRING" 15, .number "NUMBER" 16,
  .number "BOOLEAN" 17, .number "ARRAY" 18, .number "OBJECT" 19, .number "KEY" 20,
  .number "NULL" 21, .number "ENUM_MEMBER" 22, .number "STRUCT" 23, .number "EVENT" 24,
  .number "OPERATOR" 25, .number "TYPE_PARAMETER" 26]

def symbolTag : EnumDecl := enumerateSince (.since 16) "SymbolTag" [
  .number "DEPRECATED" 1]

def documentSymbol : Decl := declare "DocumentSymbol" [
  .required "name" .str,
  .required "kind" (.openEnum .symbolKind),
  .required "range" (.record .range),
  .required "selectionRange" (.record .range),
  .optional "detail" .str,
  .since (.since 16) "tags" (.list (.openEnum .symbolTag)),
  .optional "deprecated" .bool,
  .optional "children" (.list (.record .documentSymbol))]

def symbolInformation : Decl := declare "SymbolInformation" [
  .required "name" .str,
  .required "kind" (.openEnum .symbolKind),
  .required "location" (.record .location),
  .since (.since 16) "tags" (.list (.openEnum .symbolTag)),
  .optional "deprecated" .bool,
  .optional "containerName" .str]

def documentSymbolParams : Decl := declare "DocumentSymbolParams" [
  .since (.since 15) "workDoneToken" progressToken,
  .required "textDocument" (.record .textDocumentIdentifier),
  .since (.since 15) "partialResultToken" progressToken]

def documentSymbolOptions : Decl := declare "DocumentSymbolOptions" [
  .since (.since 16) "label" .str,
  .since (.since 15) "workDoneProgress" .bool]

def symbolKindCapability : Decl := declare "SymbolKindCapability" [
  .optional "valueSet" (.list (.openEnum .symbolKind))]

def symbolTagSupport : Decl := declareSince (.since 16) "SymbolTagSupport" [
  .required "valueSet" (.list (.openEnum .symbolTag))]

def documentSymbolClientCapabilities : Decl := declare "DocumentSymbolClientCapabilities" [
  .optional "dynamicRegistration" .bool,
  .optional "symbolKind" (.record .symbolKindCapability),
  .optional "hierarchicalDocumentSymbolSupport" .bool,
  .since (.since 16) "tagSupport" (.record .symbolTagSupport),
  .since (.since 16) "labelSupport" .bool]

def workspaceSymbolParams : Decl := declare "WorkspaceSymbolParams" [
  .since (.since 15) "workDoneToken" progressToken,
  .required "query" .str,
  .since (.since 15) "partialResultToken" progressToken]

def workspaceSymbolClientCapabilities : Decl := declare "WorkspaceSymbolClientCapabilities" [
  .optional "dynamicRegistration" .bool,
  .optional "symbolKind" (.record .symbolKindCapability),
  .since (.since 16) "tagSupport" (.record .symbolTagSupport)]

end LspWire.Protocol
