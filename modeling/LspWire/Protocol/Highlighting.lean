import LspWire.Protocol.Unions

/-!
# Semantic highlighting

The highlighting of a line travels as packed tokens.
-/

namespace LspWire.Protocol

def semanticHighlightingClientCapability : Decl := declare "SemanticHighlightingClientCapability" [
  .required "semanticHighlighting" .bool]

def semanticHighlightingServerCapability : Decl := declare "SemanticHighlightingServerCapability" [
  .optional "scopes" (.list (.list .str))]

def semanticHighlightingToken : Decl := declare "SemanticHighlightingToken" [
  .required "character" .int [.unsigned 32],
  .required "length" .int [.unsigned 16],
  .required "scope" .int [.unsigned 16]]

def semanticHighlightingInformation : Decl := declare "SemanticHighlightingInformation" [
  .required "line" .int,
  ⟨"tokens", .packed .semanticHighlightingToken, .null, none, []⟩]

def semanticHighlightingParams : Decl := declare "SemanticHighlightingParams" [
  .required "textDocument" (.record .versionedTextDocumentIdentifier),
  .required "lines" (.list (.record .semanticHighlightingInformation))]

end LspWire.Protocol
