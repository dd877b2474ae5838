import LspWire.Protocol.Names

/-!
# Unions of the protocol

Unions, and lists and maps, that the protocol has a name for. `namedTypes` lists them by these
names.
-/

namespace LspWire.Protocol

/-- What identifies a progress. -/
def progressToken : DataType := .union [.int, .str]

/-- What identifies a request. -/
def requestId : DataType := .union [.int, .str]

/-- A free-form object. -/
def lspObject : DataType := .map .any

/-- Filters of which a document must pass one. -/
def documentSelector : DataType := .list (.record .documentFilter)

/-- A text, or code in a language. -/
def markedString : DataType := .union [.str, .record .languageString]

/-- A text, plain or marked up. -/
def documentation : DataType := .union [.str, .record .markupContent]

/-- One step of a workspace edit. -/
def documentChange : DataType := .union [.record .textDocumentEdit, .record .createFile,
  .record .renameFile, .record .deleteFile]

/-- The edit of a completion item. -/
def completionTextEdit : DataType := .union [.record .textEdit, .record .insertReplaceEdit]

/-- What completion answers. -/
def completionResponse : DataType :=
  .union [.list (.record .completionItem), .record .completionList]

/-- What a request for a place answers. -/
def gotoDefinitionResponse : DataType := .union [.record .location, .list (.record .location),
  .list (.record .locationLink)]

/-- The symbols of a document, as a tree or flat. -/
def documentSymbolResponse : DataType := .union [.list (.record .documentSymbol),
  .list (.record .symbolInformation)]

/-- What a request for code actions answers. -/
def codeActionResponse : DataType := .list (.union [.record .command, .record .codeAction])

/-- What the preparation of a rename answers. -/
def prepareRenameResponse : DataType := .union [.record .range, .record .rangeWithPlaceholder,
  .record .prepareRenameDefaultBehavior]

/-- How a server announces renaming while typing. -/
def onTypeRenameServerCapabilities : DataType := .union [.bool, .record .onTypeRenameOptions,
  .record .onTypeRenameRegistrationOptions]

/-- A filter of notebooks, by one of three properties at least. -/
def notebookDocumentFilter : DataType := .union [.record .notebookDocumentFilterByType,
  .record .notebookDocumentFilterByScheme, .record .notebookDocumentFilterByPattern]

/-- The type of a notebook, or a filter. -/
def notebook : DataType := .union [.str, .record .notebookDocumentFilterByType,
  .record .notebookDocumentFilterByScheme, .record .notebookDocumentFilterByPattern]

/-- What selects cells of notebooks, by the notebook or by the cells. -/
def notebookSelector : DataType := .union [.record .notebookSelectorByNotebook,
  .record .notebookSelectorByCells]

/-- The value of a property of an action. -/
def messageActionItemProperty : DataType := .union [.bool, .int, .str, lspObject]

/-- The named unions, lists and maps. -/
def namedTypes : List (String × DataType) := [
  ("ProgressToken", progressToken),
  ("RequestId", requestId),
  ("LSPObject", lspObject),
  ("DocumentSelector", documentSelector),
  ("MarkedString", markedString),
  ("Documentation", documentation),
  ("DocumentChange", documentChange),
  ("CompletionTextEdit", completionTextEdit),
  ("CompletionResponse", completionResponse),
  ("GotoDefinitionResponse", gotoDefinitionResponse),
  ("DocumentSymbolResponse", documentSymbolResponse),
  ("CodeActionResponse", codeActionResponse),
  ("PrepareRenameResponse", prepareRenameResponse),
  ("OnTypeRenameServerCapabilities", onTypeRenameServerCapabilities),
  ("NotebookDocumentFilter", notebookDocumentFilter),
  ("Notebook", notebook),
  ("NotebookSelector", notebookSelector),
  ("MessageActionItemProperty", messageActionItemProperty)]

end LspWire.Protocol
