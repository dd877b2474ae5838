import LspWire.Protocol.Unions

/-!
# Actions

Code actions, code lenses and links inside documents.
-/

namespace LspWire.Protocol

def codeActionKind : EnumDecl := enumerate "CodeActionKind" [
  .text "EMPTY" "", .text "QUICK_FIX" "quickfix", .text "REFACTOR" "refactor",
  .text "REFACTOR_EXTRACT" "refactor.extract", .text "REFACTOR_INLINE" "refactor.inline",
  .text "REFACTOR_REWRITE" "refactor.rewrite", .text "SOURCE" "source",
  .text "SOURCE_ORGANIZE_IMPORTS" "source.organizeImports", .text "SOURCE_FIX_ALL" "source.fixAll"]

def codeActionContext : Decl := declare "CodeActionContext" [
  .required "diagnostics" (.list (.record .diagnostic)),
  .optional "only" (.list (.openEnum .codeActionKind))]

def codeActionParams : Decl := declare "CodeActionParams" [
  .since (.since 15) "workDoneToken" progressToken,
  .required "textDocument" (.record .textDocumentIdentifier),
  .required "range" (.record .range),
  .required "context" (.record .codeActionContext),
  .since (.since 15) "partialResultToken" progressToken]

def codeActionDisabled : Decl := declareSince (.since 16) "CodeActionDisabled" [
  .required "reason" .str]

def codeAction : Decl := declare "CodeAction" [
  .required "title" .str,
  .optional "kind" (.openEnum .codeActionKind),
  .optional "diagnostics" (.list (.record .diagnostic)),
  .since (.since 15) "isPreferred" .bool,
  .since (.since 16) "disabled" (.record .codeActionDisabled),
  .optional "edit" (.record .workspaceEdit),
  .optional "command" (.record .command),
  .free "data" (some (.since 16))]

def codeActionOptions : Decl := declare "CodeActionOptions" [
  .optional "codeActionKinds" (.list (.openEnum .codeActionKind)),
  .since (.since 16) "resolveProvider" .bool,
  .since (.since 15) "workDoneProgress" .bool]

def codeActionKindLiteralSupport : Decl := declare "CodeActionKindLiteralSupport" [
  .required "valueSet" (.list (.openEnum .codeActionKind))]

def codeActionLiteralSupport : Decl := declare "CodeActionLiteralSupport" [
  .required "codeActionKind" (.record .codeActionKindLiteralSupport)]

def codeActionResolveSupport : Decl := declareSince (.since 16) "CodeActionResolveSupport" [
  .required "properties" (.list .str)]

def codeActionClientCapabilities : Decl := declare "CodeActionClientCapabilities" [
  .optional "dynamicRegistration" .bool,
  .optional "codeActionLiteralSupport" (.record .codeActionLiteralSupport),
  .since (.since 15) "isPreferredSupport" .bool,
  .since (.since 16) "disabledSupport" .bool,
  .since (.since 16) "dataSupport" .bool,
  .since (.since 16) "resolveSupport" (.record .codeActionResolveSupport),
  .since (.since 16) "honorsChangeAnnotations" .bool]

def codeLensOptions : Decl := declare "CodeLensOptions" [
  .optional "resolveProvider" .bool,
  .since (.since 15) "workDoneProgress" .bool]

def codeLensParams : Decl := declare "CodeLensParams" [
  .since (.since 15) "workDoneToken" progressToken,
  .required "textDocument" (.record .textDocumentIdentifier),
  .since (.since 15) "partialResultToken" progressToken]

def codeLens : Decl := declare "CodeLens" [
  .required "range" (.record .range),
  .optional "command" (.record .command),
  .free "data"]

def codeLensClientCapabilities : Decl := declare "CodeLensClientCapabilities" [
  .optional "dynamicRegistration" .bool]

def codeLensWorkspaceClientCapabilities : Decl :=
  declareSince (.since 16) "CodeLensWorkspaceClientCapabilities" [
  .optional "refreshSupport" .bool]

def documentLinkParams : Decl := declare "DocumentLinkParams" [
  .since (.since 15) "workDoneToken" progressToken,
  .required "textDocument" (.record .textDocumentIdentifier),
  .since (.since 15) "partialResultToken" progressToken]

def documentLink : Decl := declare "DocumentLink" [
  .required "range" (.record .range),
  .optional "target" .str,
  .since (.since 15) "tooltip" .str,
  .free "data"]

def documentLinkOptions : Decl := declare "DocumentLinkOptions" [
  .optional "resolveProvider" .bool,
  .since (.since 15) "workDoneProgress" .bool]

def documentLinkClientCapabilities : Decl := declare "DocumentLinkClientCapabilities" [
  .optional "dynamicRegistration" .bool,
  .since (.since 15) "tooltipSupport" .bool]

end LspWire.Protocol
