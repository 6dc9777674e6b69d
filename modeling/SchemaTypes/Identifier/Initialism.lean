/-!
# Words with a spelling of their own

Curated words that keep one spelling inside identifiers: initialisms in capitals and a few words
in mixed case.
-/

namespace SchemaTypes.Identifier

/-- Words written in capitals. -/
def initialisms : List (List Char) :=
  ["ACL", "API", "ASCII", "CPU", "CSS", "DNS", "EOF", "GUID", "HTML", "HTTP", "HTTPS", "ID", "IP",
   "JSON", "LHS", "QPS", "RAM", "RHS", "RPC", "SLA", "SMTP", "SQL", "SSH", "TCP", "TLS", "TTL",
   "UDP", "UI", "UID", "UUID", "URI", "URL", "UTF8", "VM", "XML", "XMPP", "XSRF", "XSS", "AFK",
   "MFA", "NSFW", "RSVP", "SKU", "TTS"].map String.toList

/-- Words written in mixed case, by their form in capitals. -/
def specialWords : List (List Char × List Char) :=
  [("IDS", "IDs"), ("OAUTH2", "OAuth2")].map fun (w, spelling) ↦ (w.toList, spelling.toList)

end SchemaTypes.Identifier
