import LspWire.Protocol.Unions

/-!
# Capabilities

What clients and servers announce that they can do.
-/

namespace LspWire.Protocol

def textDocumentRegistrationOptions : Decl := declare "TextDocumentRegistrationOptions" [
  .required "documentSelector" (.orNull documentSelector)]

def staticRegistrationOptions : Decl := declare "StaticRegistrationOptions" [
  .optional "id" .str]

def dynamicRegistrationClientCapabilities : Decl :=
  declare "DynamicRegistrationClientCapabilities" [
  .optional "dynamicRegistration" .bool]

def textDocumentClientCapabilities : Decl := declare "TextDocumentClientCapabilities" [
  .optional "synchronization" (.record .textDocumentSyncClientCapabilities),
  .optional "completion" (.record .completionClientCapabilities),
  .optional "hover" (.record .hoverClientCapabilities),
  .optional "signatureHelp" (.record .signatureHelpClientCapabilities),
  .since (.since 14) "declaration" (.record .gotoCapability),
  .optional "definition" (.record .gotoCapability),
  .optional "typeDefinition" (.record .gotoCapability),
  .optional "implementation" (.record .gotoCapability),
  .optional "references" (.record .dynamicRegistrationClientCapabilities),
  .optional "documentHighlight" (.record .dynamicRegistrationClientCapabilities),
  .optional "documentSymbol" (.record .documentSymbolClientCapabilities),
  .optional "codeAction" (.record .codeActionClientCapabilities),
  .optional "codeLens" (.record .codeLensClientCapabilities),
  .optional "documentLink" (.record .documentLinkClientCapabilities),
  .optional "formatting" (.record .dynamicRegistrationClientCapabilities),
  .optional "rangeFormatting" (.record .dynamicRegistrationClientCapabilities),
  .optional "onTypeFormatting" (.record .dynamicRegistrationClientCapabilities),
  .optional "rename" (.record .renameClientCapabilities),
  .optional "publishDiagnostics" (.record .publishDiagnosticsClientCapabilities),
  .optional "semanticHighlightingCapabilities" (.record .semanticHighlightingClientCapability),
  .since (.since 16 true) "onTypeRename" (.record .dynamicRegistrationClientCapabilities)]

def workspaceClientCapabilities : Decl := declare "WorkspaceClientCapabilities" [
  .optional "applyEdit" .bool,
  .optional "workspaceEdit" (.record .workspaceEditClientCapabilities),
  .optional "didChangeConfiguration" (.record .didChangeConfigurationClientCapabilities),
  .optional "didChangeWatchedFiles" (.record .didChangeWatchedFilesClientCapabilities),
  .optional "symbol" (.record .workspaceSymbolClientCapabilities),
  .optional "executeCommand" (.record .executeCommandClientCapabilities),
  .since (.since 6) "workspaceFolders" .bool,
  .since (.since 6) "configuration" .bool,
  .since (.since 16) "codeLens" (.record .codeLensWorkspaceClientCapabilities)]

def regularExpressionsClientCapabilities : Decl :=
  declareSince (.since 16) "RegularExpressionsClientCapabilities" [
  .required "engine" .str,
  .optional "version" .str]

def markdownClientCapabilities : Decl := declareSince (.since 16) "MarkdownClientCapabilities" [
  .required "parser" .str,
  .optional "version" .str]

def generalClientCapabilities : Decl := declareSince (.since 16) "GeneralClientCapabilities" [
  .optional "regularExpressions" (.record .regularExpressionsClientCapabilities),
  .optional "markdown" (.record .markdownClientCapabilities),
  .since (.since 17) "positionEncodings" (.list (.openEnum .positionEncodingKind))]

def clientCapabilities : Decl := declare "ClientCapabilities" [
  .optional "workspace" (.record .workspaceClientCapabilities),
  .optional "textDocument" (.record .textDocumentClientCapabilities),
  .optional "window" (.record .windowClientCapabilities),
  .since (.since 16) "general" (.record .generalClientCapabilities),
  .since (.since 17) "notebookDocument" (.record .notebookDocumentClientCapabilities),
  .free "experimental"]

def serverCapabilities : Decl := declare "ServerCapabilities" [
  .since (.since 17) "positionEncoding" (.openEnum .positionEncodingKind),
  .optional "textDocumentSync" (.union [.record .textDocumentSyncOptions,
    .enumeration .textDocumentSyncKind]),
  .since (.since 17) "notebookDocumentSync" (.union [.record .notebookDocumentSyncOptions,
    .record .notebookDocumentSyncRegistrationOptions]),
  .optional "completionProvider" (.record .completionOptions),
  .optional "hoverProvider" (.union [.bool, .record .hoverOptions]),
  .optional "signatureHelpProvider" (.record .signatureHelpOptions),
  .since (.since 14) "declarationProvider" (.union [.bool, .record .workDoneProgressOptions]),
  .optional "definitionProvider" (.union [.bool, .record .workDoneProgressOptions]),
  .optional "typeDefinitionProvider" (.union [.bool, .record .workDoneProgressOptions]),
  .optional "implementationProvider" (.union [.bool, .record .workDoneProgressOptions]),
  .optional "referencesProvider" (.union [.bool, .record .workDoneProgressOptions]),
  .optional "documentHighlightProvider" (.union [.bool, .record .documentHighlightOptions]),
  .optional "documentSymbolProvider" (.union [.bool, .record .documentSymbolOptions]),
  .optional "workspaceSymbolProvider" (.union [.bool, .record .workDoneProgressOptions]),
  .optional "codeActionProvider" (.union [.bool, .record .codeActionOptions]),
  .optional "codeLensProvider" (.record .codeLensOptions),
  .optional "documentFormattingProvider" (.union [.bool, .record .workDoneProgressOptions]),
  .optional "documentRangeFormattingProvider" (.union [.bool, .record .workDoneProgressOptions]),
  .optional "documentOnTypeFormattingProvider" (.record .documentOnTypeFormattingOptions),
  .optional "renameProvider" (.union [.bool, .record .renameOptions]),
  .optional "documentLinkProvider" (.record .documentLinkOptions),
  .optional "executeCommandProvider" (.record .executeCommandOptions),
  .optional "workspace" (.record .workspaceServerCapabilities),
  .optional "semanticHighlighting" (.record .semanticHighlightingServerCapability),
  .since (.since 16 true) "onTypeRenameProvider" onTypeRenameServerCapabilities,
  .free "experimental"]

end LspWire.Protocol
