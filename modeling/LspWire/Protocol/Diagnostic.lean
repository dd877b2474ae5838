import LspWire.Protocol.Unions

/-!
# Diagnostics

Problems that a server reports about a document. Severities are ordered.
-/

namespace LspWire.Protocol

def diagnosticSeverity : EnumDecl :=
  { enumerate "DiagnosticSeverity" [
      .number "ERROR" 1, .number "WARNING" 2, .number "INFORMATION" 3, .number "HINT" 4] with
    isOrdered := true }

def diagnosticTag : EnumDecl := enumerateSince (.since 15) "DiagnosticTag" [
  .number "UNNECESSARY" 1, .number "DEPRECATED" 2]

def codeDescription : Decl := declareSince (.since 16) "CodeDescription" [
  .required "href" .str]

def diagnosticRelatedInformation : Decl := declare "DiagnosticRelatedInformation" [
  .required "location" (.record .location),
  .required "message" .str]

def diagnostic : Decl := declare "Diagnostic" [
  .required "range" (.record .range),
  .required "message" .str,
  .optional "severity" (.enumeration .diagnosticSeverity),
  .optional "code" progressToken,
  .since (.since 16) "codeDescription" (.record .codeDescription),
  .optional "source" .str,
  .since (.since 15) "tags" (.list (.openEnum .diagnosticTag)),
  .optional "relatedInformation" (.list (.record .diagnosticRelatedInformation)),
  .free "data" (some (.since 16))]

def diagnosticTagSupport : Decl := declareSince (.since 15) "DiagnosticTagSupport" [
  .required "valueSet" (.list (.openEnum .diagnosticTag))]

def publishDiagnosticsParams : Decl := declare "PublishDiagnosticsParams" [
  .required "uri" .str,
  .required "diagnostics" (.list (.record .diagnostic)),
  .since (.since 15) "version" .int]

def publishDiagnosticsClientCapabilities : Decl := declare "PublishDiagnosticsClientCapabilities" [
  .optional "relatedInformation" .bool,
  .since (.since 15) "tagSupport" (.record .diagnosticTagSupport),
  .since (.since 15) "versionSupport" .bool,
  .since (.since 16) "codeDescriptionSupport" .bool,
  .since (.since 16) "dataSupport" .bool]

end LspWire.Protocol
