import LspWire.Protocol.Unions

/-!
# Notebooks

Notebook documents and their cells. All of it is proposed.
-/

namespace LspWire.Protocol

def notebookCellKind : EnumDecl := enumerateSince (.since 17) "NotebookCellKind" [
  .number "MARKUP" 1, .number "CODE" 2]

def executionSummary : Decl := declareSince (.since 17) "ExecutionSummary" [
  .required "executionOrder" .int,
  .optional "success" .bool]

def notebookCell : Decl := declareSince (.since 17) "NotebookCell" [
  .required "kind" (.enumeration .notebookCellKind),
  .required "document" .str,
  .optional "metadata" lspObject,
  .optional "executionSummary" (.record .executionSummary)]

def notebookDocument : Decl := declareSince (.since 17) "NotebookDocument" [
  .required "uri" .str,
  .required "notebookType" .str,
  .required "version" .int,
  .required "cells" (.list (.record .notebookCell)),
  .optional "metadata" lspObject]

def notebookDocumentSyncClientCapabilities : Decl :=
  declareSince (.since 17) "NotebookDocumentSyncClientCapabilities" [
  .optional "dynamicRegistration" .bool,
  .optional "executionSummarySupport" .bool]

def notebookDocumentClientCapabilities : Decl :=
  declareSince (.since 17) "NotebookDocumentClientCapabilities" [
  .required "synchronization" (.record .notebookDocumentSyncClientCapabilities)]

def notebookDocumentFilterByType : Decl :=
  declareSince (.since 17) "NotebookDocumentFilterByType" [
  .required "notebookType" .str,
  .optional "scheme" .str,
  .optional "pattern" .str]

def notebookDocumentFilterByScheme : Decl :=
  declareSince (.since 17) "NotebookDocumentFilterByScheme" [
  .required "scheme" .str,
  .optional "notebookType" .str,
  .optional "pattern" .str]

def notebookDocumentFilterByPattern : Decl :=
  declareSince (.since 17) "NotebookDocumentFilterByPattern" [
  .required "pattern" .str,
  .optional "notebookType" .str,
  .optional "scheme" .str]

def notebookCellSelector : Decl := declareSince (.since 17) "NotebookCellSelector" [
  .required "language" .str]

def notebookSelectorByNotebook : Decl := declareSince (.since 17) "NotebookSelectorByNotebook" [
  .required "notebook" notebook,
  .optional "cells" (.list (.record .notebookCellSelector))]

def notebookSelectorByCells : Decl := declareSince (.since 17) "NotebookSelectorByCells" [
  .required "cells" (.list (.record .notebookCellSelector)),
  .optional "notebook" notebook]

def notebookCellTextDocumentFilter : Decl :=
  declareSince (.since 17) "NotebookCellTextDocumentFilter" [
  .required "notebook" notebook,
  .optional "language" .str]

def notebookDocumentSyncOptions : Decl := declareSince (.since 17) "NotebookDocumentSyncOptions" [
  .required "notebookSelector" (.list notebookSelector),
  .optional "save" .bool]

def notebookDocumentSyncRegistrationOptions : Decl :=
  declareSince (.since 17) "NotebookDocumentSyncRegistrationOptions" [
  .required "notebookSelector" (.list notebookSelector),
  .optional "save" .bool,
  .optional "id" .str]

def notebookDocumentIdentifier : Decl := declareSince (.since 17) "NotebookDocumentIdentifier" [
  .required "uri" .str]

def versionedNotebookDocumentIdentifier : Decl :=
  declareSince (.since 17) "VersionedNotebookDocumentIdentifier" [
  .required "version" .int,
  .required "uri" .str]

def notebookCellArrayChange : Decl := declareSince (.since 17) "NotebookCellArrayChange" [
  .required "start" .int,
  .required "deleteCount" .int,
  .optional "cells" (.list (.record .notebookCell))]

def notebookDocumentCellChangeStructure : Decl :=
  declareSince (.since 17) "NotebookDocumentCellChangeStructure" [
  .required "array" (.record .notebookCellArrayChange),
  .optional "didOpen" (.list (.record .textDocumentItem)),
  .optional "didClose" (.list (.record .textDocumentIdentifier))]

def notebookDocumentChangeTextContent : Decl :=
  declareSince (.since 17) "NotebookDocumentChangeTextContent" [
  .required "document" (.record .versionedTextDocumentIdentifier),
  .required "changes" (.list (.record .textDocumentContentChangeEvent))]

def notebookDocumentCellChange : Decl := declareSince (.since 17) "NotebookDocumentCellChange" [
  .optional "structure" (.record .notebookDocumentCellChangeStructure),
  .optional "data" (.list (.record .notebookCell)),
  .optional "textContent" (.list (.record .notebookDocumentChangeTextContent))]

def notebookDocumentChangeEvent : Decl := declareSince (.since 17) "NotebookDocumentChangeEvent" [
  .optional "metadata" lspObject,
  .optional "cells" (.record .notebookDocumentCellChange)]

def didOpenNotebookDocumentParams : Decl :=
  declareSince (.since 17) "DidOpenNotebookDocumentParams" [
  .required "notebookDocument" (.record .notebookDocument),
  .required "cellTextDocuments" (.list (.record .textDocumentItem))]

def didChangeNotebookDocumentParams : Decl :=
  declareSince (.since 17) "DidChangeNotebookDocumentParams" [
  .required "notebookDocument" (.record .versionedNotebookDocumentIdentifier),
  .required "change" (.record .notebookDocumentChangeEvent)]

def didSaveNotebookDocumentParams : Decl :=
  declareSince (.since 17) "DidSaveNotebookDocumentParams" [
  .required "notebookDocument" (.record .notebookDocumentIdentifier)]

def didCloseNotebookDocumentParams : Decl :=
  declareSince (.since 17) "DidCloseNotebookDocumentParams" [
  .required "notebookDocument" (.record .notebookDocumentIdentifier),
  .required "cellTextDocuments" (.list (.record .textDocumentIdentifier))]

end LspWire.Protocol
