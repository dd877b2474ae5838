import LspWire.Value.Basic

/-!
# Names of the protocol

The names of all records and enumerations of the protocol, and short forms for writing their
declarations.
-/

namespace LspWire.Protocol

/-- The names of the records. -/
inductive RecordName where
  | position
  | range
  | location
  | locationLink
  | textDocumentIdentifier
  | versionedTextDocumentIdentifier
  | optionalVersionedTextDocumentIdentifier
  | textDocumentItem
  | textDocumentPositionParams
  | documentFilter
  | markupContent
  | languageString
  | textEdit
  | annotationOfChange
  | annotatedTextEdit
  | textDocumentEdit
  | createFileOptions
  | createFile
  | renameFileOptions
  | renameFile
  | deleteFileOptions
  | deleteFile
  | workspaceEdit
  | applyWorkspaceEditParams
  | applyWorkspaceEditResponse
  | changeAnnotationSupport
  | workspaceEditClientCapabilities
  | codeDescription
  | diagnosticRelatedInformation
  | diagnostic
  | diagnosticTagSupport
  | publishDiagnosticsParams
  | publishDiagnosticsClientCapabilities
  | message
  | requestMessage
  | notificationMessage
  | responseError
  | responseMessage
  | cancelParams
  | setTraceParams
  | logTraceParams
  | progressParams
  | workDoneProgressBegin
  | workDoneProgressReport
  | workDoneProgressEnd
  | workDoneProgressCreateParams
  | workDoneProgressCancelParams
  | workDoneProgressParams
  | workDoneProgressOptions
  | showMessageParams
  | logMessageParams
  | messageActionItem
  | showMessageRequestParams
  | messageActionItemCapabilities
  | showMessageRequestClientCapabilities
  | showDocumentClientCapabilities
  | showDocumentParams
  | showDocumentResult
  | windowClientCapabilities
  | workspaceFolder
  | workspaceFoldersChangeEvent
  | didChangeWorkspaceFoldersParams
  | workspaceFoldersServerCapabilities
  | workspaceServerCapabilities
  | didChangeConfigurationParams
  | didChangeConfigurationClientCapabilities
  | configurationItem
  | configurationParams
  | fileEvent
  | didChangeWatchedFilesParams
  | fileSystemWatcher
  | didChangeWatchedFilesRegistrationOptions
  | didChangeWatchedFilesClientCapabilities
  | command
  | executeCommandParams
  | executeCommandOptions
  | executeCommandClientCapabilities
  | saveOptions
  | textDocumentSyncOptions
  | textDocumentSyncClientCapabilities
  | didOpenTextDocumentParams
  | textDocumentContentChangeEvent
  | didChangeTextDocumentParams
  | textDocumentChangeRegistrationOptions
  | willSaveTextDocumentParams
  | didSaveTextDocumentParams
  | textDocumentSaveRegistrationOptions
  | didCloseTextDocumentParams
  | completionItemTagSupport
  | completionItemCapabilityResolveSupport
  | insertTextModeSupport
  | completionItemCapability
  | completionItemKindCapability
  | completionClientCapabilities
  | insertReplaceEdit
  | completionOptions
  | completionRegistrationOptions
  | completionContext
  | completionParams
  | completionItem
  | completionList
  | hoverParams
  | hover
  | hoverClientCapabilities
  | hoverOptions
  | parameterInformation
  | signatureInformation
  | signatureHelp
  | signatureHelpContext
  | signatureHelpParams
  | signatureHelpOptions
  | parameterInformationCapability
  | signatureInformationCapability
  | signatureHelpClientCapabilities
  | definitionParams
  | typeDefinitionParams
  | implementationParams
  | gotoCapability
  | referenceContext
  | referenceParams
  | documentHighlightParams
  | documentHighlight
  | documentHighlightOptions
  | documentSymbol
  | symbolInformation
  | documentSymbolParams
  | documentSymbolOptions
  | symbolKindCapability
  | symbolTagSupport
  | documentSymbolClientCapabilities
  | workspaceSymbolParams
  | workspaceSymbolClientCapabilities
  | codeActionContext
  | codeActionParams
  | codeActionDisabled
  | codeAction
  | codeActionOptions
  | codeActionKindLiteralSupport
  | codeActionLiteralSupport
  | codeActionResolveSupport
  | codeActionClientCapabilities
  | codeLensOptions
  | codeLensParams
  | codeLens
  | codeLensClientCapabilities
  | codeLensWorkspaceClientCapabilities
  | documentLinkParams
  | documentLink
  | documentLinkOptions
  | documentLinkClientCapabilities
  | formattingOptions
  | documentFormattingParams
  | documentRangeFormattingParams
  | documentOnTypeFormattingParams
  | documentOnTypeFormattingOptions
  | renameParams
  | renameOptions
  | renameClientCapabilities
  | prepareRenameParams
  | rangeWithPlaceholder
  | prepareRenameDefaultBehavior
  | onTypeRenameOptions
  | onTypeRenameRegistrationOptions
  | onTypeRenameParams
  | onTypeRenameRanges
  | semanticHighlightingClientCapability
  | semanticHighlightingServerCapability
  | semanticHighlightingToken
  | semanticHighlightingInformation
  | semanticHighlightingParams
  | executionSummary
  | notebookCell
  | notebookDocument
  | notebookDocumentSyncClientCapabilities
  | notebookDocumentClientCapabilities
  | notebookDocumentFilterByType
  | notebookDocumentFilterByScheme
  | notebookDocumentFilterByPattern
  | notebookCellSelector
  | notebookSelectorByNotebook
  | notebookSelectorByCells
  | notebookCellTextDocumentFilter
  | notebookDocumentSyncOptions
  | notebookDocumentSyncRegistrationOptions
  | notebookDocumentIdentifier
  | versionedNotebookDocumentIdentifier
  | notebookCellArrayChange
  | notebookDocumentCellChangeStructure
  | notebookDocumentChangeTextContent
  | notebookDocumentCellChange
  | notebookDocumentChangeEvent
  | didOpenNotebookDocumentParams
  | didChangeNotebookDocumentParams
  | didSaveNotebookDocumentParams
  | didCloseNotebookDocumentParams
  | textDocumentRegistrationOptions
  | staticRegistrationOptions
  | dynamicRegistrationClientCapabilities
  | textDocumentClientCapabilities
  | workspaceClientCapabilities
  | regularExpressionsClientCapabilities
  | markdownClientCapabilities
  | generalClientCapabilities
  | clientCapabilities
  | serverCapabilities
  | clientInfo
  | initializeParams
  | serverInfo
  | initializeResult
  | initializeError
  | initializedParams
  | registration
  | registrationParams
  | unregistration
  | unregistrationParams
deriving DecidableEq, Repr

/-- The names of the enumerations. -/
inductive EnumName where
  | positionEncodingKind
  | markupKind
  | resourceOperationKind
  | failureHandlingKind
  | diagnosticSeverity
  | diagnosticTag
  | errorCodes
  | traceValue
  | messageType
  | fileChangeType
  | watchKind
  | textDocumentSyncKind
  | textDocumentSaveReason
  | insertTextFormat
  | completionItemKind
  | insertTextMode
  | completionItemTag
  | completionTriggerKind
  | signatureHelpTriggerKind
  | documentHighlightKind
  | symbolKind
  | symbolTag
  | codeActionKind
  | prepareSupportDefaultBehavior
  | notebookCellKind
  | initializeErrorCodes
deriving DecidableEq, Repr

/-- Types of the protocol. -/
abbrev DataType := Ty RecordName EnumName

/-- Values of the protocol. -/
abbrev Datum := Value RecordName EnumName

/-- Declarations of records of the protocol. -/
abbrev Decl := RecordDecl RecordName EnumName

/-- A record that is written as an object of its fields. -/
def declare (name : String) (fields : List (Field RecordName EnumName)) : Decl :=
  ⟨name, none, .plain fields⟩

/-- A record that a version introduced, written as an object of its fields. -/
def declareSince (tag : Tag) (name : String) (fields : List (Field RecordName EnumName)) : Decl :=
  ⟨name, some tag, .plain fields⟩

/-- An enumeration whose members have no order. -/
def enumerate (name : String) (members : List Member) : EnumDecl :=
  ⟨name, none, false, false, members⟩

/-- An enumeration that a version introduced. -/
def enumerateSince (tag : Tag) (name : String) (members : List Member) : EnumDecl :=
  ⟨name, some tag, false, false, members⟩

/-- Every record name, in the order of the declarations. -/
def RecordName.all : List RecordName := [
  .position, .range, .location, .locationLink, .textDocumentIdentifier,
  .versionedTextDocumentIdentifier, .optionalVersionedTextDocumentIdentifier, .textDocumentItem,
  .textDocumentPositionParams, .documentFilter, .markupContent, .languageString, .textEdit,
  .annotationOfChange, .annotatedTextEdit, .textDocumentEdit, .createFileOptions, .createFile,
  .renameFileOptions, .renameFile, .deleteFileOptions, .deleteFile, .workspaceEdit,
  .applyWorkspaceEditParams, .applyWorkspaceEditResponse, .changeAnnotationSupport,
  .workspaceEditClientCapabilities, .codeDescription, .diagnosticRelatedInformation,
  .diagnostic, .diagnosticTagSupport, .publishDiagnosticsParams,
  .publishDiagnosticsClientCapabilities, .message, .requestMessage, .notificationMessage,
  .responseError, .responseMessage, .cancelParams, .setTraceParams, .logTraceParams,
  .progressParams, .workDoneProgressBegin, .workDoneProgressReport, .workDoneProgressEnd,
  .workDoneProgressCreateParams, .workDoneProgressCancelParams, .workDoneProgressParams,
  .workDoneProgressOptions, .showMessageParams, .logMessageParams, .messageActionItem,
  .showMessageRequestParams, .messageActionItemCapabilities,
  .showMessageRequestClientCapabilities, .showDocumentClientCapabilities, .showDocumentParams,
  .showDocumentResult, .windowClientCapabilities, .workspaceFolder,
  .workspaceFoldersChangeEvent, .didChangeWorkspaceFoldersParams,
  .workspaceFoldersServerCapabilities, .workspaceServerCapabilities,
  .didChangeConfigurationParams, .didChangeConfigurationClientCapabilities, .configurationItem,
  .configurationParams, .fileEvent, .didChangeWatchedFilesParams, .fileSystemWatcher,
  .didChangeWatchedFilesRegistrationOptions, .didChangeWatchedFilesClientCapabilities, .command,
  .executeCommandParams, .executeCommandOptions, .executeCommandClientCapabilities,
  .saveOptions, .textDocumentSyncOptions, .textDocumentSyncClientCapabilities,
  .didOpenTextDocumentParams, .textDocumentContentChangeEvent, .didChangeTextDocumentParams,
  .textDocumentChangeRegistrationOptions, .willSaveTextDocumentParams,
  .didSaveTextDocumentParams, .textDocumentSaveRegistrationOptions, .didCloseTextDocumentParams,
  .completionItemTagSupport, .completionItemCapabilityResolveSupport, .insertTextModeSupport,
  .completionItemCapability, .completionItemKindCapability, .completionClientCapabilities,
  .insertReplaceEdit, .completionOptions, .completionRegistrationOptions, .completionContext,
  .completionParams, .completionItem, .completionList, .hoverParams, .hover,
  .hoverClientCapabilities, .hoverOptions, .parameterInformation, .signatureInformation,
  .signatureHelp, .signatureHelpContext, .signatureHelpParams, .signatureHelpOptions,
  .parameterInformationCapability, .signatureInformationCapability,
  .signatureHelpClientCapabilities, .definitionParams, .typeDefinitionParams,
  .implementationParams, .gotoCapability, .referenceContext, .referenceParams,
  .documentHighlightParams, .documentHighlight, .documentHighlightOptions, .documentSymbol,
  .symbolInformation, .documentSymbolParams, .documentSymbolOptions, .symbolKindCapability,
  .symbolTagSupport, .documentSymbolClientCapabilities, .workspaceSymbolParams,
  .workspaceSymbolClientCapabilities, .codeActionContext, .codeActionParams,
  .codeActionDisabled, .codeAction, .codeActionOptions, .codeActionKindLiteralSupport,
  .codeActionLiteralSupport, .codeActionResolveSupport, .codeActionClientCapabilities,
  .codeLensOptions, .codeLensParams, .codeLens, .codeLensClientCapabilities,
  .codeLensWorkspaceClientCapabilities, .documentLinkParams, .documentLink,
  .documentLinkOptions, .documentLinkClientCapabilities, .formattingOptions,
  .documentFormattingParams, .documentRangeFormattingParams, .documentOnTypeFormattingParams,
  .documentOnTypeFormattingOptions, .renameParams, .renameOptions, .renameClientCapabilities,
  .prepareRenameParams, .rangeWithPlaceholder, .prepareRenameDefaultBehavior,
  .onTypeRenameOptions, .onTypeRenameRegistrationOptions, .onTypeRenameParams,
  .onTypeRenameRanges, .semanticHighlightingClientCapability,
  .semanticHighlightingServerCapability, .semanticHighlightingToken,
  .semanticHighlightingInformation, .semanticHighlightingParams, .executionSummary,
  .notebookCell, .notebookDocument, .notebookDocumentSyncClientCapabilities,
  .notebookDocumentClientCapabilities, .notebookDocumentFilterByType,
  .notebookDocumentFilterByScheme, .notebookDocumentFilterByPattern, .notebookCellSelector,
  .notebookSelectorByNotebook, .notebookSelectorByCells, .notebookCellTextDocumentFilter,
  .notebookDocumentSyncOptions, .notebookDocumentSyncRegistrationOptions,
  .notebookDocumentIdentifier, .versionedNotebookDocumentIdentifier, .notebookCellArrayChange,
  .notebookDocumentCellChangeStructure, .notebookDocumentChangeTextContent,
  .notebookDocumentCellChange, .notebookDocumentChangeEvent, .didOpenNotebookDocumentParams,
  .didChangeNotebookDocumentParams, .didSaveNotebookDocumentParams,
  .didCloseNotebookDocumentParams, .textDocumentRegistrationOptions, .staticRegistrationOptions,
  .dynamicRegistrationClientCapabilities, .textDocumentClientCapabilities,
  .workspaceClientCapabilities, .regularExpressionsClientCapabilities,
  .markdownClientCapabilities, .generalClientCapabilities, .clientCapabilities,
  .serverCapabilities, .clientInfo, .initializeParams, .serverInfo, .initializeResult,
  .initializeError, .initializedParams, .registration, .registrationParams, .unregistration,
  .unregistrationParams]

/-- Every enumeration name, in the order of the declarations. -/
def EnumName.all : List EnumName := [
  .positionEncodingKind, .markupKind, .resourceOperationKind, .failureHandlingKind,
  .diagnosticSeverity, .diagnosticTag, .errorCodes, .traceValue, .messageType, .fileChangeType,
  .watchKind, .textDocumentSyncKind, .textDocumentSaveReason, .insertTextFormat,
  .completionItemKind, .insertTextMode, .completionItemTag, .completionTriggerKind,
  .signatureHelpTriggerKind, .documentHighlightKind, .symbolKind, .symbolTag, .codeActionKind,
  .prepareSupportDefaultBehavior, .notebookCellKind, .initializeErrorCodes]

end LspWire.Protocol
