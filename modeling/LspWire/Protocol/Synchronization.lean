import LspWire.Protocol.Unions

/-!
# Synchronization of documents

What a client sends when it opens, changes, saves and closes a document.
-/

namespace LspWire.Protocol

def textDocumentSyncKind : EnumDecl := enumerate "TextDocumentSyncKind" [
  .number "NONE" 0, .number "FULL" 1, .number "INCREMENTAL" 2]

def textDocumentSaveReason : EnumDecl := enumerate "TextDocumentSaveReason" [
  .number "MANUAL" 1, .number "AFTER_DELAY" 2, .number "FOCUS_OUT" 3]

def saveOptions : Decl := declare "SaveOptions" [
  .optional "includeText" .bool]

def textDocumentSyncOptions : Decl := declare "TextDocumentSyncOptions" [
  .optional "openClose" .bool,
  .optional "change" (.enumeration .textDocumentSyncKind),
  .optional "willSave" .bool,
  .optional "willSaveWaitUntil" .bool,
  .optional "save" (.union [.bool, .record .saveOptions])]

def textDocumentSyncClientCapabilities : Decl := declare "TextDocumentSyncClientCapabilities" [
  .optional "dynamicRegistration" .bool,
  .optional "willSave" .bool,
  .optional "willSaveWaitUntil" .bool,
  .optional "didSave" .bool]

def didOpenTextDocumentParams : Decl := declare "DidOpenTextDocumentParams" [
  .required "textDocument" (.record .textDocumentItem)]

def textDocumentContentChangeEvent : Decl := declare "TextDocumentContentChangeEvent" [
  .required "text" .str,
  .optional "range" (.record .range),
  .optional "rangeLength" .int]

def didChangeTextDocumentParams : Decl := declare "DidChangeTextDocumentParams" [
  .required "textDocument" (.record .versionedTextDocumentIdentifier),
  .required "contentChanges" (.list (.record .textDocumentContentChangeEvent))]

def textDocumentChangeRegistrationOptions : Decl :=
  declare "TextDocumentChangeRegistrationOptions" [
  .required "documentSelector" (.orNull documentSelector),
  .required "syncKind" (.enumeration .textDocumentSyncKind)]

def willSaveTextDocumentParams : Decl := declare "WillSaveTextDocumentParams" [
  .required "textDocument" (.record .textDocumentIdentifier),
  .required "reason" (.enumeration .textDocumentSaveReason)]

def didSaveTextDocumentParams : Decl := declare "DidSaveTextDocumentParams" [
  .required "textDocument" (.record .textDocumentIdentifier),
  .optional "text" .str]

def textDocumentSaveRegistrationOptions : Decl := declare "TextDocumentSaveRegistrationOptions" [
  .required "documentSelector" (.orNull documentSelector),
  .optional "includeText" .bool]

def didCloseTextDocumentParams : Decl := declare "DidCloseTextDocumentParams" [
  .required "textDocument" (.record .textDocumentIdentifier)]

end LspWire.Protocol
