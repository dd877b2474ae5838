import LspWire.Protocol.Unions

/-!
# Formatting and renaming

Formatting of documents, renaming, and renaming while typing, which is proposed.
-/

namespace LspWire.Protocol

def formattingOptions : Decl := declare "FormattingOptions" [
  .required "tabSize" .int,
  .required "insertSpaces" .bool,
  .since (.since 15) "trimTrailingWhitespace" .bool,
  .since (.since 15) "insertFinalNewline" .bool,
  .since (.since 15) "trimFinalNewlines" .bool]

def documentFormattingParams : Decl := declare "DocumentFormattingParams" [
  .since (.since 15) "workDoneToken" progressToken,
  .required "textDocument" (.record .textDocumentIdentifier),
  .required "options" (.record .formattingOptions)]

def documentRangeFormattingParams : Decl := declare "DocumentRangeFormattingParams" [
  .since (.since 15) "workDoneToken" progressToken,
  .required "textDocument" (.record .textDocumentIdentifier),
  .required "range" (.record .range),
  .required "options" (.record .formattingOptions)]

def documentOnTypeFormattingParams : Decl := declare "DocumentOnTypeFormattingParams" [
  .required "textDocument" (.record .textDocumentIdentifier),
  .required "position" (.record .position),
  .required "ch" .str,
  .required "options" (.record .formattingOptions)]

def documentOnTypeFormattingOptions : Decl := declare "DocumentOnTypeFormattingOptions" [
  .required "firstTriggerCharacter" .str,
  .optional "moreTriggerCharacter" (.list .str)]

def renameParams : Decl := declare "RenameParams" [
  .required "textDocument" (.record .textDocumentIdentifier),
  .required "position" (.record .position),
  .required "newName" .str,
  .since (.since 15) "workDoneToken" progressToken]

def renameOptions : Decl := declare "RenameOptions" [
  .since (.since 12) "prepareProvider" .bool,
  .since (.since 15) "workDoneProgress" .bool]

def prepareSupportDefaultBehavior : EnumDecl :=
  enumerateSince (.since 16) "PrepareSupportDefaultBehavior" [
  .number "IDENTIFIER" 1]

def renameClientCapabilities : Decl := declare "RenameClientCapabilities" [
  .optional "dynamicRegistration" .bool,
  .since (.since 12) "prepareSupport" .bool,
  .since (.since 16) "prepareSupportDefaultBehavior" (.enumeration .prepareSupportDefaultBehavior),
  .since (.since 16) "honorsChangeAnnotations" .bool]

def prepareRenameParams : Decl := declare "PrepareRenameParams" [
  .required "textDocument" (.record .textDocumentIdentifier),
  .required "position" (.record .position)]

def rangeWithPlaceholder : Decl := declare "RangeWithPlaceholder" [
  .required "range" (.record .range),
  .required "placeholder" .str]

def prepareRenameDefaultBehavior : Decl :=
  declareSince (.since 16) "PrepareRenameDefaultBehavior" [
  .required "defaultBehavior" .bool]

def onTypeRenameOptions : Decl := declareSince (.since 16 true) "OnTypeRenameOptions" [
  .since (.since 15) "workDoneProgress" .bool]

def onTypeRenameRegistrationOptions : Decl :=
  declareSince (.since 16 true) "OnTypeRenameRegistrationOptions" [
  .required "documentSelector" (.orNull documentSelector),
  .since (.since 15) "workDoneProgress" .bool,
  .optional "id" .str]

def onTypeRenameParams : Decl := declareSince (.since 16 true) "OnTypeRenameParams" [
  .required "textDocument" (.record .textDocumentIdentifier),
  .required "position" (.record .position),
  .since (.since 15) "workDoneToken" progressToken]

def onTypeRenameRanges : Decl := declareSince (.since 16 true) "OnTypeRenameRanges" [
  .required "ranges" (.list (.record .range)),
  .optional "wordPattern" .str]

end LspWire.Protocol
