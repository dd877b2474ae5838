import LspWire.Protocol.Unions

/-!
# Edits

Edits of texts, operations on files, and edits of a whole workspace that are made up of both.
-/

namespace LspWire.Protocol

def textEdit : Decl := declare "TextEdit" [
  .required "range" (.record .range),
  .required "newText" .str]

def annotationOfChange : Decl := declareSince (.since 16) "ChangeAnnotation" [
  .required "label" .str,
  .optional "needsConfirmation" .bool,
  .optional "description" .str]

def annotatedTextEdit : Decl := declareSince (.since 16) "AnnotatedTextEdit" [
  .required "range" (.record .range),
  .required "newText" .str,
  .required "annotationId" .str]

def textDocumentEdit : Decl := declare "TextDocumentEdit" [
  .required "textDocument" (.record .optionalVersionedTextDocumentIdentifier),
  .required "edits" (.list (.union [.record .textEdit, .record .annotatedTextEdit]))]

def createFileOptions : Decl := declare "CreateFileOptions" [
  .optional "overwrite" .bool,
  .optional "ignoreIfExists" .bool]

def createFile : Decl := declare "CreateFile" [
  .required "uri" .str,
  .optional "options" (.record .createFileOptions),
  .since (.since 16) "annotationId" .str,
  .kind "create"]

def renameFileOptions : Decl := declare "RenameFileOptions" [
  .optional "overwrite" .bool,
  .optional "ignoreIfExists" .bool]

def renameFile : Decl := declare "RenameFile" [
  .required "oldUri" .str,
  .required "newUri" .str,
  .optional "options" (.record .renameFileOptions),
  .since (.since 16) "annotationId" .str,
  .kind "rename"]

def deleteFileOptions : Decl := declare "DeleteFileOptions" [
  .optional "recursive" .bool,
  .optional "ignoreIfNotExists" .bool]

def deleteFile : Decl := declare "DeleteFile" [
  .required "uri" .str,
  .optional "options" (.record .deleteFileOptions),
  .since (.since 16) "annotationId" .str,
  .kind "delete"]

def workspaceEdit : Decl := declare "WorkspaceEdit" [
  .optional "changes" (.map (.list (.record .textEdit))),
  .optional "documentChanges" (.list documentChange),
  .since (.since 16) "changeAnnotations" (.map (.record .annotationOfChange))]

def applyWorkspaceEditParams : Decl := declare "ApplyWorkspaceEditParams" [
  .required "edit" (.record .workspaceEdit),
  .optional "label" .str]

def applyWorkspaceEditResponse : Decl := declare "ApplyWorkspaceEditResponse" [
  .required "applied" .bool,
  .since (.since 16) "failureReason" .str,
  .since (.since 16) "failedChange" .int]

def resourceOperationKind : EnumDecl := enumerate "ResourceOperationKind" [
  .text "CREATE" "create", .text "RENAME" "rename", .text "DELETE" "delete"]

def failureHandlingKind : EnumDecl := enumerate "FailureHandlingKind" [
  .text "ABORT" "abort", .text "TRANSACTIONAL" "transactional",
  .text "TEXT_ONLY_TRANSACTIONAL" "textOnlyTransactional", .text "UNDO" "undo"]

def changeAnnotationSupport : Decl := declareSince (.since 16) "ChangeAnnotationSupport" [
  .optional "groupsOnLabel" .bool]

def workspaceEditClientCapabilities : Decl := declare "WorkspaceEditClientCapabilities" [
  .optional "documentChanges" .bool,
  .since (.since 13) "resourceOperations" (.list (.openEnum .resourceOperationKind)),
  .since (.since 13) "failureHandling" (.openEnum .failureHandlingKind),
  .since (.since 16) "normalizesLineEndings" .bool,
  .since (.since 16) "changeAnnotationSupport" (.record .changeAnnotationSupport)]

end LspWire.Protocol
