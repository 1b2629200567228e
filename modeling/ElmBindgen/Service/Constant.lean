import ElmBindgen.Value.Literal

/-!
# The closed sets of a service description

Protocols, signers and timestamp formats, each with the word that stands for it
in a service description.

## Main definitions

* `Protocol`, `Signer`, `TimestampFormat`: the closed sets
* `Constant`: a member of any of them
* `defaultTimestampFormat`: the format that a protocol implies
-/

namespace ElmBindgen

/-- How requests and responses are encoded. -/
inductive Protocol where
  | ec2
  | json
  | query
  | restJson
  | restXml
  deriving DecidableEq, Repr

namespace Protocol

/-- The protocols in the order in which they are reported. -/
def all : List Protocol := [ec2, json, query, restJson, restXml]

/-- The name of a protocol. -/
def name : Protocol → String
  | ec2 => "EC2"
  | json => "JSON"
  | query => "QUERY"
  | restJson => "REST_JSON"
  | restXml => "REST_XML"

/-- The word for a protocol in a service description. -/
def wire : Protocol → String
  | ec2 => "ec2"
  | json => "json"
  | query => "query"
  | restJson => "rest-json"
  | restXml => "rest-xml"

end Protocol

/-- How requests are signed. -/
inductive Signer where
  | v4
  | s3
  deriving DecidableEq, Repr

namespace Signer

/-- The signers in the order in which they are reported. -/
def all : List Signer := [v4, s3]

/-- The name of a signer. -/
def name : Signer → String
  | v4 => "SIGN_V4"
  | s3 => "SIGN_S3"

/-- The word for a signer in a service description. -/
def wire : Signer → String
  | v4 => "v4"
  | s3 => "s3"

end Signer

/-- How points in time are encoded. -/
inductive TimestampFormat where
  | iso8601
  | rfc822
  | unixTimestamp
  deriving DecidableEq, Repr

namespace TimestampFormat

/-- The formats in the order in which they are reported. -/
def all : List TimestampFormat := [iso8601, rfc822, unixTimestamp]

/-- The name of a format. -/
def name : TimestampFormat → String
  | iso8601 => "ISO8601"
  | rfc822 => "RFC822"
  | unixTimestamp => "UNIX_TIMESTAMP"

/-- The word for a format in a service description. -/
def wire : TimestampFormat → String
  | iso8601 => "iso8601"
  | rfc822 => "rfc822"
  | unixTimestamp => "unixTimestamp"

end TimestampFormat

/-- JSON bodies carry seconds since the epoch, everything else ISO 8601. -/
def defaultTimestampFormat : Protocol → TimestampFormat
  | .json => .unixTimestamp
  | .restJson => .unixTimestamp
  | .ec2 => .iso8601
  | .query => .iso8601
  | .restXml => .iso8601

/-- A member of one of the closed sets. -/
inductive Constant where
  | protocol (p : Protocol)
  | signer (s : Signer)
  | timestampFormat (f : TimestampFormat)
  deriving DecidableEq, Repr

namespace Constant

/-- All constants. -/
def all : List Constant :=
  Protocol.all.map protocol ++ Signer.all.map signer ++ TimestampFormat.all.map timestampFormat

/-- The name of the set that a constant belongs to. -/
def family : Constant → String
  | protocol _ => "Protocol"
  | signer _ => "Signer"
  | timestampFormat _ => "TimestampFormat"

/-- The name of a constant within its set. -/
def name : Constant → String
  | protocol p => p.name
  | signer s => s.name
  | timestampFormat f => f.name

/-- The word for a constant in a service description. -/
def wire : Constant → String
  | protocol p => p.wire
  | signer s => s.wire
  | timestampFormat f => f.wire

/-- The literal form of a constant. -/
def literal (c : Constant) : String :=
  "<" ++ c.family ++ "." ++ c.name ++ ": " ++ Text.literal c.wire ++ ">"

/-- The constant with a name in a set. -/
def find? (family name : String) : Option Constant :=
  all.find? fun c => c.family = family && c.name = name

end Constant

end ElmBindgen
