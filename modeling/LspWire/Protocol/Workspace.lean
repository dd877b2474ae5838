import LspWire.Protocol.Unions

/-!
# The workspace

Folders, configuration, watched files and commands.
-/

namespace LspWire.Protocol

def workspaceFolder : Decl := declareSince (.since 6) "WorkspaceFolder" [
  .required "uri" .str,
  .required "name" .str]

def workspaceFoldersChangeEvent : Decl := declare "WorkspaceFoldersChangeEvent" [
  .required "added" (.list (.record .workspaceFolder)),
  .required "removed" (.list (.record .workspaceFolder))]

def didChangeWorkspaceFoldersParams : Decl := declare "DidChangeWorkspaceFoldersParams" [
  .required "event" (.record .workspaceFoldersChangeEvent)]

def workspaceFoldersServerCapabilities : Decl := declare "WorkspaceFoldersServerCapabilities" [
  .optional "supported" .bool,
  .optional "changeNotifications" (.union [.bool, .str])]

def workspaceServerCapabilities : Decl := declare "WorkspaceServerCapabilities" [
  .optional "workspaceFolders" (.record .workspaceFoldersServerCapabilities)]

def didChangeConfigurationParams : Decl := declare "DidChangeConfigurationParams" [
  .required "settings" .any]

def didChangeConfigurationClientCapabilities : Decl :=
  declare "DidChangeConfigurationClientCapabilities" [
  .optional "dynamicRegistration" .bool]

def configurationItem : Decl := declare "ConfigurationItem" [
  .optional "scopeUri" .str,
  .optional "section" .str]

def configurationParams : Decl := declare "ConfigurationParams" [
  .required "items" (.list (.record .configurationItem))]

def fileChangeType : EnumDecl := enumerate "FileChangeType" [
  .number "CREATED" 1, .number "CHANGED" 2, .number "DELETED" 3]

def fileEvent : Decl := declare "FileEvent" [
  .required "uri" .str,
  .required "type" (.enumeration .fileChangeType)]

def didChangeWatchedFilesParams : Decl := declare "DidChangeWatchedFilesParams" [
  .required "changes" (.list (.record .fileEvent))]

def watchKind : EnumDecl :=
  { enumerate "WatchKind" [
      .number "CREATE" 1, .number "CHANGE" 2, .number "DELETE" 4] with
    isFlags := true }

def fileSystemWatcher : Decl := declare "FileSystemWatcher" [
  .required "globPattern" .str,
  .optional "kind" .int]

def didChangeWatchedFilesRegistrationOptions : Decl :=
  declare "DidChangeWatchedFilesRegistrationOptions" [
  .required "watchers" (.list (.record .fileSystemWatcher))]

def didChangeWatchedFilesClientCapabilities : Decl :=
  declare "DidChangeWatchedFilesClientCapabilities" [
  .optional "dynamicRegistration" .bool]

def command : Decl := declare "Command" [
  .required "title" .str,
  .required "command" .str,
  .optional "arguments" (.list .any)]

def executeCommandParams : Decl := declare "ExecuteCommandParams" [
  .since (.since 15) "workDoneToken" progressToken,
  .required "command" .str,
  .optional "arguments" (.list .any)]

def executeCommandOptions : Decl := declare "ExecuteCommandOptions" [
  .required "commands" (.list .str),
  .since (.since 15) "workDoneProgress" .bool]

def executeCommandClientCapabilities : Decl := declare "ExecuteCommandClientCapabilities" [
  .optional "dynamicRegistration" .bool]

end LspWire.Protocol
