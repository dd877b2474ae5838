import LspWire.Protocol.Unions

/-!
# Progress

Reports of the progress of work. The three reports are told apart by their kind.
-/

namespace LspWire.Protocol

def progressParams : Decl := declareSince (.since 15) "ProgressParams" [
  .required "token" progressToken,
  .required "value" .any]

def workDoneProgressBegin : Decl := declareSince (.since 15) "WorkDoneProgressBegin" [
  .required "title" .str,
  .optional "cancellable" .bool,
  .optional "message" .str,
  .optional "percentage" .int,
  .kind "begin"]

def workDoneProgressReport : Decl := declareSince (.since 15) "WorkDoneProgressReport" [
  .optional "cancellable" .bool,
  .optional "message" .str,
  .optional "percentage" .int,
  .kind "report"]

def workDoneProgressEnd : Decl := declareSince (.since 15) "WorkDoneProgressEnd" [
  .optional "message" .str,
  .kind "end"]

def workDoneProgressCreateParams : Decl :=
  declareSince (.since 15) "WorkDoneProgressCreateParams" [
  .required "token" progressToken]

def workDoneProgressCancelParams : Decl :=
  declareSince (.since 15) "WorkDoneProgressCancelParams" [
  .required "token" progressToken]

def workDoneProgressParams : Decl := declare "WorkDoneProgressParams" [
  .since (.since 15) "workDoneToken" progressToken]

def workDoneProgressOptions : Decl := declare "WorkDoneProgressOptions" [
  .since (.since 15) "workDoneProgress" .bool]

end LspWire.Protocol
