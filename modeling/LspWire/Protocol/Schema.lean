import LspWire.Protocol.Action
import LspWire.Protocol.Capability
import LspWire.Protocol.Completion
import LspWire.Protocol.Diagnostic
import LspWire.Protocol.Document
import LspWire.Protocol.Edit
import LspWire.Protocol.Highlighting
import LspWire.Protocol.Hover
import LspWire.Protocol.Lifecycle
import LspWire.Protocol.Message
import LspWire.Protocol.Navigation
import LspWire.Protocol.Notebook
import LspWire.Protocol.Progress
import LspWire.Protocol.Refactoring
import LspWire.Protocol.Synchronization
import LspWire.Protocol.Window
import LspWire.Protocol.Workspace

/-!
# The schema of the protocol

The declaration of every record and enumeration, by name.
-/

namespace LspWire.Protocol

/-- The declaration of a record. -/
def recordDecl : RecordName → Decl
  | .position => Protocol.position
  | .range => Protocol.range
  | .location => Protocol.location
  | .locationLink => Protocol.locationLink
  | .textDocumentIdentifier => Protocol.textDocumentIdentifier
  | .versionedTextDocumentIdentifier => Protocol.versionedTextDocumentIdentifier
  | .optionalVersionedTextDocumentIdentifier => Protocol.optionalVersionedTextDocumentIdentifier
  | .textDocumentItem => Protocol.textDocumentItem
  | .textDocumentPositionParams => Protocol.textDocumentPositionParams
  | .documentFilter => Protocol.documentFilter
  | .markupContent => Protocol.markupContent
  | .languageString => Protocol.languageString
  | .textEdit => Protocol.textEdit
  | .annotationOfChange => Protocol.annotationOfChange
  | .annotatedTextEdit => Protocol.annotatedTextEdit
  | .textDocumentEdit => Protocol.textDocumentEdit
  | .createFileOptions => Protocol.createFileOptions
  | .createFile => Protocol.createFile
  | .renameFileOptions => Protocol.renameFileOptions
  | .renameFile => Protocol.renameFile
  | .deleteFileOptions => Protocol.deleteFileOptions
  | .deleteFile => Protocol.deleteFile
  | .workspaceEdit => Protocol.workspaceEdit
  | .applyWorkspaceEditParams => Protocol.applyWorkspaceEditParams
  | .applyWorkspaceEditResponse => Protocol.applyWorkspaceEditResponse
  | .changeAnnotationSupport => Protocol.changeAnnotationSupport
  | .workspaceEditClientCapabilities => Protocol.workspaceEditClientCapabilities
  | .codeDescription => Protocol.codeDescription
  | .diagnosticRelatedInformation => Protocol.diagnosticRelatedInformation
  | .diagnostic => Protocol.diagnostic
  | .diagnosticTagSupport => Protocol.diagnosticTagSupport
  | .publishDiagnosticsParams => Protocol.publishDiagnosticsParams
  | .publishDiagnosticsClientCapabilities => Protocol.publishDiagnosticsClientCapabilities
  | .message => Protocol.message
  | .requestMessage => Protocol.requestMessage
  | .notificationMessage => Protocol.notificationMessage
  | .responseError => Protocol.responseError
  | .responseMessage => Protocol.responseMessage
  | .cancelParams => Protocol.cancelParams
  | .setTraceParams => Protocol.setTraceParams
  | .logTraceParams => Protocol.logTraceParams
  | .progressParams => Protocol.progressParams
  | .workDoneProgressBegin => Protocol.workDoneProgressBegin
  | .workDoneProgressReport => Protocol.workDoneProgressReport
  | .workDoneProgressEnd => Protocol.workDoneProgressEnd
  | .workDoneProgressCreateParams => Protocol.workDoneProgressCreateParams
  | .workDoneProgressCancelParams => Protocol.workDoneProgressCancelParams
  | .workDoneProgressParams => Protocol.workDoneProgressParams
  | .workDoneProgressOptions => Protocol.workDoneProgressOptions
  | .showMessageParams => Protocol.showMessageParams
  | .logMessageParams => Protocol.logMessageParams
  | .messageActionItem => Protocol.messageActionItem
  | .showMessageRequestParams => Protocol.showMessageRequestParams
  | .messageActionItemCapabilities => Protocol.messageActionItemCapabilities
  | .showMessageRequestClientCapabilities => Protocol.showMessageRequestClientCapabilities
  | .showDocumentClientCapabilities => Protocol.showDocumentClientCapabilities
  | .showDocumentParams => Protocol.showDocumentParams
  | .showDocumentResult => Protocol.showDocumentResult
  | .windowClientCapabilities => Protocol.windowClientCapabilities
  | .workspaceFolder => Protocol.workspaceFolder
  | .workspaceFoldersChangeEvent => Protocol.workspaceFoldersChangeEvent
  | .didChangeWorkspaceFoldersParams => Protocol.didChangeWorkspaceFoldersParams
  | .workspaceFoldersServerCapabilities => Protocol.workspaceFoldersServerCapabilities
  | .workspaceServerCapabilities => Protocol.workspaceServerCapabilities
  | .didChangeConfigurationParams => Protocol.didChangeConfigurationParams
  | .didChangeConfigurationClientCapabilities => Protocol.didChangeConfigurationClientCapabilities
  | .configurationItem => Protocol.configurationItem
  | .configurationParams => Protocol.configurationParams
  | .fileEvent => Protocol.fileEvent
  | .didChangeWatchedFilesParams => Protocol.didChangeWatchedFilesParams
  | .fileSystemWatcher => Protocol.fileSystemWatcher
  | .didChangeWatchedFilesRegistrationOptions => Protocol.didChangeWatchedFilesRegistrationOptions
  | .didChangeWatchedFilesClientCapabilities => Protocol.didChangeWatchedFilesClientCapabilities
  | .command => Protocol.command
  | .executeCommandParams => Protocol.executeCommandParams
  | .executeCommandOptions => Protocol.executeCommandOptions
  | .executeCommandClientCapabilities => Protocol.executeCommandClientCapabilities
  | .saveOptions => Protocol.saveOptions
  | .textDocumentSyncOptions => Protocol.textDocumentSyncOptions
  | .textDocumentSyncClientCapabilities => Protocol.textDocumentSyncClientCapabilities
  | .didOpenTextDocumentParams => Protocol.didOpenTextDocumentParams
  | .textDocumentContentChangeEvent => Protocol.textDocumentContentChangeEvent
  | .didChangeTextDocumentParams => Protocol.didChangeTextDocumentParams
  | .textDocumentChangeRegistrationOptions => Protocol.textDocumentChangeRegistrationOptions
  | .willSaveTextDocumentParams => Protocol.willSaveTextDocumentParams
  | .didSaveTextDocumentParams => Protocol.didSaveTextDocumentParams
  | .textDocumentSaveRegistrationOptions => Protocol.textDocumentSaveRegistrationOptions
  | .didCloseTextDocumentParams => Protocol.didCloseTextDocumentParams
  | .completionItemTagSupport => Protocol.completionItemTagSupport
  | .completionItemCapabilityResolveSupport => Protocol.completionItemCapabilityResolveSupport
  | .insertTextModeSupport => Protocol.insertTextModeSupport
  | .completionItemCapability => Protocol.completionItemCapability
  | .completionItemKindCapability => Protocol.completionItemKindCapability
  | .completionClientCapabilities => Protocol.completionClientCapabilities
  | .insertReplaceEdit => Protocol.insertReplaceEdit
  | .completionOptions => Protocol.completionOptions
  | .completionRegistrationOptions => Protocol.completionRegistrationOptions
  | .completionContext => Protocol.completionContext
  | .completionParams => Protocol.completionParams
  | .completionItem => Protocol.completionItem
  | .completionList => Protocol.completionList
  | .hoverParams => Protocol.hoverParams
  | .hover => Protocol.hover
  | .hoverClientCapabilities => Protocol.hoverClientCapabilities
  | .hoverOptions => Protocol.hoverOptions
  | .parameterInformation => Protocol.parameterInformation
  | .signatureInformation => Protocol.signatureInformation
  | .signatureHelp => Protocol.signatureHelp
  | .signatureHelpContext => Protocol.signatureHelpContext
  | .signatureHelpParams => Protocol.signatureHelpParams
  | .signatureHelpOptions => Protocol.signatureHelpOptions
  | .parameterInformationCapability => Protocol.parameterInformationCapability
  | .signatureInformationCapability => Protocol.signatureInformationCapability
  | .signatureHelpClientCapabilities => Protocol.signatureHelpClientCapabilities
  | .definitionParams => Protocol.definitionParams
  | .typeDefinitionParams => Protocol.typeDefinitionParams
  | .implementationParams => Protocol.implementationParams
  | .gotoCapability => Protocol.gotoCapability
  | .referenceContext => Protocol.referenceContext
  | .referenceParams => Protocol.referenceParams
  | .documentHighlightParams => Protocol.documentHighlightParams
  | .documentHighlight => Protocol.documentHighlight
  | .documentHighlightOptions => Protocol.documentHighlightOptions
  | .documentSymbol => Protocol.documentSymbol
  | .symbolInformation => Protocol.symbolInformation
  | .documentSymbolParams => Protocol.documentSymbolParams
  | .documentSymbolOptions => Protocol.documentSymbolOptions
  | .symbolKindCapability => Protocol.symbolKindCapability
  | .symbolTagSupport => Protocol.symbolTagSupport
  | .documentSymbolClientCapabilities => Protocol.documentSymbolClientCapabilities
  | .workspaceSymbolParams => Protocol.workspaceSymbolParams
  | .workspaceSymbolClientCapabilities => Protocol.workspaceSymbolClientCapabilities
  | .codeActionContext => Protocol.codeActionContext
  | .codeActionParams => Protocol.codeActionParams
  | .codeActionDisabled => Protocol.codeActionDisabled
  | .codeAction => Protocol.codeAction
  | .codeActionOptions => Protocol.codeActionOptions
  | .codeActionKindLiteralSupport => Protocol.codeActionKindLiteralSupport
  | .codeActionLiteralSupport => Protocol.codeActionLiteralSupport
  | .codeActionResolveSupport => Protocol.codeActionResolveSupport
  | .codeActionClientCapabilities => Protocol.codeActionClientCapabilities
  | .codeLensOptions => Protocol.codeLensOptions
  | .codeLensParams => Protocol.codeLensParams
  | .codeLens => Protocol.codeLens
  | .codeLensClientCapabilities => Protocol.codeLensClientCapabilities
  | .codeLensWorkspaceClientCapabilities => Protocol.codeLensWorkspaceClientCapabilities
  | .documentLinkParams => Protocol.documentLinkParams
  | .documentLink => Protocol.documentLink
  | .documentLinkOptions => Protocol.documentLinkOptions
  | .documentLinkClientCapabilities => Protocol.documentLinkClientCapabilities
  | .formattingOptions => Protocol.formattingOptions
  | .documentFormattingParams => Protocol.documentFormattingParams
  | .documentRangeFormattingParams => Protocol.documentRangeFormattingParams
  | .documentOnTypeFormattingParams => Protocol.documentOnTypeFormattingParams
  | .documentOnTypeFormattingOptions => Protocol.documentOnTypeFormattingOptions
  | .renameParams => Protocol.renameParams
  | .renameOptions => Protocol.renameOptions
  | .renameClientCapabilities => Protocol.renameClientCapabilities
  | .prepareRenameParams => Protocol.prepareRenameParams
  | .rangeWithPlaceholder => Protocol.rangeWithPlaceholder
  | .prepareRenameDefaultBehavior => Protocol.prepareRenameDefaultBehavior
  | .onTypeRenameOptions => Protocol.onTypeRenameOptions
  | .onTypeRenameRegistrationOptions => Protocol.onTypeRenameRegistrationOptions
  | .onTypeRenameParams => Protocol.onTypeRenameParams
  | .onTypeRenameRanges => Protocol.onTypeRenameRanges
  | .semanticHighlightingClientCapability => Protocol.semanticHighlightingClientCapability
  | .semanticHighlightingServerCapability => Protocol.semanticHighlightingServerCapability
  | .semanticHighlightingToken => Protocol.semanticHighlightingToken
  | .semanticHighlightingInformation => Protocol.semanticHighlightingInformation
  | .semanticHighlightingParams => Protocol.semanticHighlightingParams
  | .executionSummary => Protocol.executionSummary
  | .notebookCell => Protocol.notebookCell
  | .notebookDocument => Protocol.notebookDocument
  | .notebookDocumentSyncClientCapabilities => Protocol.notebookDocumentSyncClientCapabilities
  | .notebookDocumentClientCapabilities => Protocol.notebookDocumentClientCapabilities
  | .notebookDocumentFilterByType => Protocol.notebookDocumentFilterByType
  | .notebookDocumentFilterByScheme => Protocol.notebookDocumentFilterByScheme
  | .notebookDocumentFilterByPattern => Protocol.notebookDocumentFilterByPattern
  | .notebookCellSelector => Protocol.notebookCellSelector
  | .notebookSelectorByNotebook => Protocol.notebookSelectorByNotebook
  | .notebookSelectorByCells => Protocol.notebookSelectorByCells
  | .notebookCellTextDocumentFilter => Protocol.notebookCellTextDocumentFilter
  | .notebookDocumentSyncOptions => Protocol.notebookDocumentSyncOptions
  | .notebookDocumentSyncRegistrationOptions => Protocol.notebookDocumentSyncRegistrationOptions
  | .notebookDocumentIdentifier => Protocol.notebookDocumentIdentifier
  | .versionedNotebookDocumentIdentifier => Protocol.versionedNotebookDocumentIdentifier
  | .notebookCellArrayChange => Protocol.notebookCellArrayChange
  | .notebookDocumentCellChangeStructure => Protocol.notebookDocumentCellChangeStructure
  | .notebookDocumentChangeTextContent => Protocol.notebookDocumentChangeTextContent
  | .notebookDocumentCellChange => Protocol.notebookDocumentCellChange
  | .notebookDocumentChangeEvent => Protocol.notebookDocumentChangeEvent
  | .didOpenNotebookDocumentParams => Protocol.didOpenNotebookDocumentParams
  | .didChangeNotebookDocumentParams => Protocol.didChangeNotebookDocumentParams
  | .didSaveNotebookDocumentParams => Protocol.didSaveNotebookDocumentParams
  | .didCloseNotebookDocumentParams => Protocol.didCloseNotebookDocumentParams
  | .textDocumentRegistrationOptions => Protocol.textDocumentRegistrationOptions
  | .staticRegistrationOptions => Protocol.staticRegistrationOptions
  | .dynamicRegistrationClientCapabilities => Protocol.dynamicRegistrationClientCapabilities
  | .textDocumentClientCapabilities => Protocol.textDocumentClientCapabilities
  | .workspaceClientCapabilities => Protocol.workspaceClientCapabilities
  | .regularExpressionsClientCapabilities => Protocol.regularExpressionsClientCapabilities
  | .markdownClientCapabilities => Protocol.markdownClientCapabilities
  | .generalClientCapabilities => Protocol.generalClientCapabilities
  | .clientCapabilities => Protocol.clientCapabilities
  | .serverCapabilities => Protocol.serverCapabilities
  | .clientInfo => Protocol.clientInfo
  | .initializeParams => Protocol.initializeParams
  | .serverInfo => Protocol.serverInfo
  | .initializeResult => Protocol.initializeResult
  | .initializeError => Protocol.initializeError
  | .initializedParams => Protocol.initializedParams
  | .registration => Protocol.registration
  | .registrationParams => Protocol.registrationParams
  | .unregistration => Protocol.unregistration
  | .unregistrationParams => Protocol.unregistrationParams

/-- The declaration of an enumeration. -/
def enumDecl : EnumName → EnumDecl
  | .positionEncodingKind => Protocol.positionEncodingKind
  | .markupKind => Protocol.markupKind
  | .resourceOperationKind => Protocol.resourceOperationKind
  | .failureHandlingKind => Protocol.failureHandlingKind
  | .diagnosticSeverity => Protocol.diagnosticSeverity
  | .diagnosticTag => Protocol.diagnosticTag
  | .errorCodes => Protocol.errorCodes
  | .traceValue => Protocol.traceValue
  | .messageType => Protocol.messageType
  | .fileChangeType => Protocol.fileChangeType
  | .watchKind => Protocol.watchKind
  | .textDocumentSyncKind => Protocol.textDocumentSyncKind
  | .textDocumentSaveReason => Protocol.textDocumentSaveReason
  | .insertTextFormat => Protocol.insertTextFormat
  | .completionItemKind => Protocol.completionItemKind
  | .insertTextMode => Protocol.insertTextMode
  | .completionItemTag => Protocol.completionItemTag
  | .completionTriggerKind => Protocol.completionTriggerKind
  | .signatureHelpTriggerKind => Protocol.signatureHelpTriggerKind
  | .documentHighlightKind => Protocol.documentHighlightKind
  | .symbolKind => Protocol.symbolKind
  | .symbolTag => Protocol.symbolTag
  | .codeActionKind => Protocol.codeActionKind
  | .prepareSupportDefaultBehavior => Protocol.prepareSupportDefaultBehavior
  | .notebookCellKind => Protocol.notebookCellKind
  | .initializeErrorCodes => Protocol.initializeErrorCodes

/-- The schema of the protocol. -/
def schema : Schema RecordName EnumName := ⟨recordDecl, enumDecl⟩

end LspWire.Protocol
