import LspWire.Protocol.Unions

/-!
# Documents and places in them

Positions, ranges and locations, the identifiers of documents, and the text formats of
documentation.
-/

namespace LspWire.Protocol

def positionEncodingKind : EnumDecl := enumerateSince (.since 17) "PositionEncodingKind" [
  .text "UTF8" "utf-8", .text "UTF16" "utf-16", .text "UTF32" "utf-32"]

def position : Decl := declare "Position" [
  .required "line" .int,
  .required "character" .int]

def range : Decl := declare "Range" [
  .required "start" (.record .position),
  .required "end" (.record .position)]

def location : Decl := declare "Location" [
  .required "uri" .str,
  .required "range" (.record .range)]

def locationLink : Decl := declareSince (.since 14) "LocationLink" [
  .required "targetUri" .str,
  .required "targetRange" (.record .range),
  .required "targetSelectionRange" (.record .range),
  .optional "originSelectionRange" (.record .range)]

def textDocumentIdentifier : Decl := declare "TextDocumentIdentifier" [
  .required "uri" .str]

def versionedTextDocumentIdentifier : Decl := declare "VersionedTextDocumentIdentifier" [
  .required "uri" .str,
  .required "version" .int]

def optionalVersionedTextDocumentIdentifier : Decl :=
  declare "OptionalVersionedTextDocumentIdentifier" [
  .required "uri" .str,
  .required "version" (.orNull .int)]

def textDocumentItem : Decl := declare "TextDocumentItem" [
  .required "uri" .str,
  .required "languageId" .str,
  .required "version" .int,
  .required "text" .str]

def textDocumentPositionParams : Decl := declare "TextDocumentPositionParams" [
  .required "textDocument" (.record .textDocumentIdentifier),
  .required "position" (.record .position)]

def documentFilter : Decl := declare "DocumentFilter" [
  .optional "language" .str,
  .optional "scheme" .str,
  .optional "pattern" .str]

def markupKind : EnumDecl := enumerate "MarkupKind" [
  .text "PLAIN_TEXT" "plaintext", .text "MARKDOWN" "markdown"]

def markupContent : Decl := declare "MarkupContent" [
  .required "kind" (.enumeration .markupKind),
  .required "value" .str]

def languageString : Decl := declare "LanguageString" [
  .required "language" .str,
  .required "value" .str]

end LspWire.Protocol
