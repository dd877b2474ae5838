import LspWire.Protocol.Unions

/-!
# Messages

The envelopes of requests, responses and notifications, the codes of errors, and tracing. A
response is written with its result or its error.
-/

namespace LspWire.Protocol

def message : Decl := declare "Message" [
  ⟨"jsonrpc", .str, .text "2.0", none, []⟩]

def requestMessage : Decl := declare "RequestMessage" [
  ⟨"jsonrpc", .str, .text "2.0", none, []⟩,
  .required "id" requestId,
  .required "method" .str,
  .free "params"]

def notificationMessage : Decl := declare "NotificationMessage" [
  ⟨"jsonrpc", .str, .text "2.0", none, []⟩,
  .required "method" .str,
  .free "params"]

def errorCodes : EnumDecl := enumerate "ErrorCodes" [
  .number "PARSE_ERROR" (-32700), .number "INVALID_REQUEST" (-32600),
  .number "METHOD_NOT_FOUND" (-32601), .number "INVALID_PARAMS" (-32602),
  .number "INTERNAL_ERROR" (-32603), .number "SERVER_NOT_INITIALIZED" (-32002),
  .number "UNKNOWN_ERROR_CODE" (-32001), .number "REQUEST_FAILED" (-32803) (some (.since 17)),
  .number "SERVER_CANCELLED" (-32802) (some (.since 17)), .number "CONTENT_MODIFIED" (-32801),
  .number "REQUEST_CANCELLED" (-32800)]

def responseError : Decl := declare "ResponseError" [
  .required "code" (.openEnum .errorCodes) [.stable],
  .required "message" .str,
  .free "data"]

def responseMessage : Decl :=
  ⟨"ResponseMessage", none,
    .outcome [
      ⟨"jsonrpc", .str, .text "2.0", none, []⟩,
      .required "id" (.orNull requestId)]
      (.free "result")
      (.optional "error" (.record .responseError))⟩

def cancelParams : Decl := declare "CancelParams" [
  .required "id" requestId]

def traceValue : EnumDecl := enumerate "TraceValue" [
  .text "OFF" "off", .text "MESSAGES" "messages", .text "VERBOSE" "verbose"]

def setTraceParams : Decl := declareSince (.since 16) "SetTraceParams" [
  .required "value" (.enumeration .traceValue)]

def logTraceParams : Decl := declareSince (.since 16) "LogTraceParams" [
  .required "message" .str,
  .optional "verbose" .str]

end LspWire.Protocol
