import LspWire.Decode
import LspWire.Protocol.Draft

/-!
# Methods

The requests and notifications of the protocol, each with the types of its parameters and of its
reply. A method decodes and encodes these, and it builds the message that carries its parameters. A
method of the proposed parts is refused unless they are enabled, except that encoding is always
possible.
-/

namespace LspWire.Protocol

/-- What a method is answered with. -/
inductive Reply where
  /-- Nothing, as for every notification. -/
  | absent
  | null
  | data (t : DataType)
deriving Repr

/-- A method of the protocol. -/
structure Method where
  name : String
  tag : Option Tag
  params? : Option DataType
  reply : Reply
deriving Repr

/-- The requests. -/
def requests : List Method := [
  ⟨"initialize", none, some (.record .initializeParams), .data (.record .initializeResult)⟩,
  ⟨"shutdown", none, none, .null⟩,
  ⟨"window/showMessageRequest", none, some (.record .showMessageRequestParams),
    .data (.orNull (.record .messageActionItem))⟩,
  ⟨"window/showDocument", some (.since 16), some (.record .showDocumentParams),
    .data (.record .showDocumentResult)⟩,
  ⟨"window/workDoneProgress/create", some (.since 15),
    some (.record .workDoneProgressCreateParams), .null⟩,
  ⟨"client/registerCapability", none, some (.record .registrationParams), .null⟩,
  ⟨"client/unregisterCapability", none, some (.record .unregistrationParams), .null⟩,
  ⟨"workspace/workspaceFolders", some (.since 6), none,
    .data (.orNull (.list (.record .workspaceFolder)))⟩,
  ⟨"workspace/configuration", some (.since 6), some (.record .configurationParams),
    .data (.list .any)⟩,
  ⟨"workspace/symbol", none, some (.record .workspaceSymbolParams),
    .data (.orNull (.list (.record .symbolInformation)))⟩,
  ⟨"workspace/executeCommand", none, some (.record .executeCommandParams), .data .any⟩,
  ⟨"workspace/applyEdit", none, some (.record .applyWorkspaceEditParams),
    .data (.record .applyWorkspaceEditResponse)⟩,
  ⟨"workspace/codeLens/refresh", some (.since 16), none, .null⟩,
  ⟨"textDocument/willSaveWaitUntil", none, some (.record .willSaveTextDocumentParams),
    .data (.orNull (.list (.record .textEdit)))⟩,
  ⟨"textDocument/completion", none, some (.record .completionParams),
    .data (.orNull completionResponse)⟩,
  ⟨"completionItem/resolve", none, some (.record .completionItem),
    .data (.record .completionItem)⟩,
  ⟨"textDocument/hover", none, some (.record .hoverParams), .data (.orNull (.record .hover))⟩,
  ⟨"textDocument/signatureHelp", none, some (.record .signatureHelpParams),
    .data (.orNull (.record .signatureHelp))⟩,
  ⟨"textDocument/declaration", some (.since 14), some (.record .definitionParams),
    .data (.orNull gotoDefinitionResponse)⟩,
  ⟨"textDocument/definition", none, some (.record .definitionParams),
    .data (.orNull gotoDefinitionResponse)⟩,
  ⟨"textDocument/typeDefinition", none, some (.record .typeDefinitionParams),
    .data (.orNull gotoDefinitionResponse)⟩,
  ⟨"textDocument/implementation", none, some (.record .implementationParams),
    .data (.orNull gotoDefinitionResponse)⟩,
  ⟨"textDocument/references", none, some (.record .referenceParams),
    .data (.orNull (.list (.record .location)))⟩,
  ⟨"textDocument/documentHighlight", none, some (.record .documentHighlightParams),
    .data (.orNull (.list (.record .documentHighlight)))⟩,
  ⟨"textDocument/documentSymbol", none, some (.record .documentSymbolParams),
    .data (.orNull documentSymbolResponse)⟩,
  ⟨"textDocument/codeAction", none, some (.record .codeActionParams),
    .data (.orNull codeActionResponse)⟩,
  ⟨"codeAction/resolve", some (.since 16), some (.record .codeAction),
    .data (.record .codeAction)⟩,
  ⟨"textDocument/codeLens", none, some (.record .codeLensParams),
    .data (.orNull (.list (.record .codeLens)))⟩,
  ⟨"codeLens/resolve", none, some (.record .codeLens), .data (.record .codeLens)⟩,
  ⟨"textDocument/documentLink", none, some (.record .documentLinkParams),
    .data (.orNull (.list (.record .documentLink)))⟩,
  ⟨"documentLink/resolve", none, some (.record .documentLink), .data (.record .documentLink)⟩,
  ⟨"textDocument/formatting", none, some (.record .documentFormattingParams),
    .data (.orNull (.list (.record .textEdit)))⟩,
  ⟨"textDocument/rangeFormatting", none, some (.record .documentRangeFormattingParams),
    .data (.orNull (.list (.record .textEdit)))⟩,
  ⟨"textDocument/onTypeFormatting", none, some (.record .documentOnTypeFormattingParams),
    .data (.orNull (.list (.record .textEdit)))⟩,
  ⟨"textDocument/rename", none, some (.record .renameParams),
    .data (.orNull (.record .workspaceEdit))⟩,
  ⟨"textDocument/prepareRename", some (.since 12), some (.record .prepareRenameParams),
    .data (.orNull prepareRenameResponse)⟩,
  ⟨"textDocument/onTypeRename", some (.since 16 true), some (.record .onTypeRenameParams),
    .data (.orNull (.record .onTypeRenameRanges))⟩]

/-- The notifications. -/
def notifications : List Method := [
  ⟨"$/cancelRequest", none, some (.record .cancelParams), .absent⟩,
  ⟨"$/progress", some (.since 15), some (.record .progressParams), .absent⟩,
  ⟨"$/setTrace", some (.since 16), some (.record .setTraceParams), .absent⟩,
  ⟨"$/logTrace", some (.since 16), some (.record .logTraceParams), .absent⟩,
  ⟨"initialized", none, some (.record .initializedParams), .absent⟩,
  ⟨"exit", none, none, .absent⟩,
  ⟨"window/showMessage", none, some (.record .showMessageParams), .absent⟩,
  ⟨"window/logMessage", none, some (.record .logMessageParams), .absent⟩,
  ⟨"window/workDoneProgress/cancel", some (.since 15),
    some (.record .workDoneProgressCancelParams), .absent⟩,
  ⟨"telemetry/event", none, some .any, .absent⟩,
  ⟨"workspace/didChangeConfiguration", none, some (.record .didChangeConfigurationParams),
    .absent⟩,
  ⟨"workspace/didChangeWorkspaceFolders", some (.since 6),
    some (.record .didChangeWorkspaceFoldersParams), .absent⟩,
  ⟨"workspace/didChangeWatchedFiles", none, some (.record .didChangeWatchedFilesParams), .absent⟩,
  ⟨"textDocument/didOpen", none, some (.record .didOpenTextDocumentParams), .absent⟩,
  ⟨"textDocument/didChange", none, some (.record .didChangeTextDocumentParams), .absent⟩,
  ⟨"textDocument/willSave", none, some (.record .willSaveTextDocumentParams), .absent⟩,
  ⟨"textDocument/didSave", none, some (.record .didSaveTextDocumentParams), .absent⟩,
  ⟨"textDocument/didClose", none, some (.record .didCloseTextDocumentParams), .absent⟩,
  ⟨"textDocument/publishDiagnostics", none, some (.record .publishDiagnosticsParams), .absent⟩,
  ⟨"textDocument/semanticHighlighting", none, some (.record .semanticHighlightingParams), .absent⟩,
  ⟨"notebookDocument/didOpen", some (.since 17), some (.record .didOpenNotebookDocumentParams),
    .absent⟩,
  ⟨"notebookDocument/didChange", some (.since 17),
    some (.record .didChangeNotebookDocumentParams), .absent⟩,
  ⟨"notebookDocument/didSave", some (.since 17), some (.record .didSaveNotebookDocumentParams),
    .absent⟩,
  ⟨"notebookDocument/didClose", some (.since 17), some (.record .didCloseNotebookDocumentParams),
    .absent⟩]

/-- The two sorts of methods. -/
inductive MethodKind where
  | request
  | notification
deriving DecidableEq, Repr

namespace MethodKind

/-- The methods of a kind. -/
def methods : MethodKind → List Method
  | .request => requests
  | .notification => notifications

def nameKind : MethodKind → NameKind
  | .request => .request
  | .notification => .notification

end MethodKind

namespace Method

def kind (m : Method) : MethodKind :=
  match m.reply with
  | .absent => .notification
  | _ => .request

/-- Whether a method is proposed. -/
def isProposed (m : Method) : Bool := Surface.isProposed m.tag

/-- The text of the version that introduced a method. -/
def introducedIn (m : Method) : Option String := m.tag.map (·.text)

/-- Whether a version covers a method. -/
def covers (v : SpecVersion) (m : Method) : Bool := Surface.covers v m.tag

/-- A method with the names of its types. -/
def describe (m : Method) : String :=
  let params := (m.params?.map schema.typeName).getD "-"
  let reply := match m.reply with
    | .absent => ""
    | .null => " -> null"
    | .data t => " -> " ++ schema.typeName t
  m.name ++ "(" ++ params ++ ")" ++ reply

/-- Refuses a proposed method unless the proposed parts are enabled. -/
def gate (enabled : Bool) (m : Method) : Except Error Unit :=
  if m.isProposed && !enabled then .error (.refused (.disabled m.name)) else .ok ()

/-- The method of a kind that a text names. -/
def find (enabled : Bool) (kind : MethodKind) (name : String) : Except Error Method :=
  match kind.methods.find? (·.name = name) with
  | none => .error (.unknownName ⟨kind.nameKind, name⟩)
  | some m => do
    m.gate enabled
    pure m

/-- Data as a type, where nothing but null is expected if there is no type. -/
def decodePart (enabled : Bool) (version? : Option SpecVersion) (unexpected : Mismatch)
    (t? : Option DataType) (x : Json) : Except Error Datum :=
  match t? with
  | some t => schema.decode enabled version? t x
  | none => if x = .null then .ok .null else .error (.mismatch unexpected)

/-- A value as a type, or null if there is no type. -/
def encodePart (t? : Option DataType) (v : Datum) : Except Error Json :=
  match t? with
  | none => .ok .null
  | some t => (schema.encodeAs t v).mapError .unwritable

/-- The parameters that data stands for. -/
def decodeParams (enabled : Bool) (version? : Option SpecVersion) (m : Method) (x : Json) :
    Except Error Datum := do
  m.gate enabled
  decodePart enabled version? (.unexpectedParams m.name) m.params? x

/-- The data of parameters. -/
def encodeParams (m : Method) (v : Datum) : Except Error Json := encodePart m.params? v

/-- The type of the result of a request, if it has one. A notification has no result at all. -/
def result (m : Method) : Except Error (Option DataType) :=
  match m.reply with
  | .absent => .error .notSuchAValue
  | .null => .ok none
  | .data t => .ok (some t)

/-- The result that data stands for. -/
def decodeResult (enabled : Bool) (version? : Option SpecVersion) (m : Method) (x : Json) :
    Except Error Datum := do
  let t? ← m.result
  m.gate enabled
  decodePart enabled version? (.unexpectedResult m.name) t? x

/-- The data of a result. -/
def encodeResult (m : Method) (v : Datum) : Except Error Json := do
  let t? ← m.result
  encodePart t? v

/-- The message that carries parameters, which are encoded. A request needs an identifier. -/
def message (enabled : Bool) (m : Method) (id : Datum) (params : Datum) : Except Error Datum := do
  m.gate enabled
  let params ← m.encodeParams params
  let arguments := [("method", .str m.name), ("params", .ofJson params)]
  match m.kind with
  | .request =>
    constructNamed enabled (.record .requestMessage) (("id", id) :: arguments)
  | .notification => constructNamed enabled (.record .notificationMessage) arguments

end Method

end LspWire.Protocol
