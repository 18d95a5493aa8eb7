import FogDispatch.Number.Hexadecimal
import FogDispatch.Request

/-!
# Request lines

A request is sent as one line: a document of names and values without any blanks, closed by a line
end.  Strings escape quotes, backslashes and control characters, so that a line end never stands
inside a document.
-/

namespace FogDispatch.Wire

/-- A document. -/
inductive Document where
  | natural (n : Nat)
  | real (a : Binary64)
  | flag (b : Bool)
  | string (s : String)
  | list (items : List Document)
  | record (fields : List (String × Document))

def escape (c : Char) : List Char :=
  if c = '"' then ['\\', '"']
  else if c = '\\' then ['\\', '\\']
  else if c = '\n' then ['\\', 'n']
  else if c = '\r' then ['\\', 'r']
  else if c = '\t' then ['\\', 't']
  else if c.toNat = 8 then ['\\', 'b']
  else if c.toNat = 12 then ['\\', 'f']
  else if c.toNat < 32 then
    ['\\', 'u', '0', '0', hexDigit 'a' (c.toNat / 16), hexDigit 'a' (c.toNat % 16)]
  else [c]

def quoted (cs : List Char) : List Char := '"' :: (cs.flatMap escape ++ ['"'])

def separated : List (List Char) → List Char
  | [] => []
  | [item] => item
  | item :: rest => item ++ ',' :: separated rest

mutual

def Document.chars : Document → List Char
  | .natural n => Decimal.digitChars n
  | .real a => (RealStyle.wire.write a).toList
  | .flag b => (if b then "true" else "false").toList
  | .string s => quoted s.toList
  | .list items => '[' :: (separated (itemChars items) ++ [']'])
  | .record fields => '\x7b' :: (separated (fieldChars fields) ++ ['\x7d'])

def itemChars : List Document → List (List Char)
  | [] => []
  | item :: rest => item.chars :: itemChars rest

def fieldChars : List (String × Document) → List (List Char)
  | [] => []
  | (name, value) :: rest => (quoted name.toList ++ ':' :: value.chars) :: fieldChars rest

end

def features (f : NodeFeatures Binary64) : Document := .list (f.toList.map .real)

/-- A field that is left out when there is nothing to say. -/
def optional (name : String) (value : Option Document) : List (String × Document) :=
  match value with
  | some document => [(name, document)]
  | none => []

/-- The numbers of an observed state and the decision they belong to. -/
def observed (number : Nat) (state : List Binary64) : Document :=
  .record [("action_id", .natural number), ("state", .list (state.map .real))]

def announcement (s : Setup Binary64) : Document :=
  .record <|
    [("setup_name", .string s.name), ("strategy", .string s.strategy),
      ("random_seed", .natural s.seed)] ++
    optional "cloud" (s.cloud.map features) ++
    [("fog", .list (s.fog.map features)),
      ("cloud_nodes_upload_bandwidth", .real s.network.cloudUpload),
      ("cloud_nodes_download_bandwidth", .real s.network.cloudDownload),
      ("fog_nodes_upload_bandwidth", .real s.network.fogUpload),
      ("fog_nodes_download_bandwidth", .real s.network.fogDownload),
      ("latency_gateway_fog_node", .real s.network.fogLatency),
      ("latency_gateway_cloud_node", .real s.network.cloudLatency),
      ("priorities_quantity", .natural s.priorities)] ++
    optional "load_pretrained_model_on" (s.learning.load.map .flag) ++
    optional "training_on" (s.learning.training.map .flag) ++
    optional "save_final_model_on" (s.learning.save.map .flag)

/-- A request as a document, its name first. -/
def document (request : Request Binary64) : Document :=
  .record <| ("action", .string request.name) :: match request with
    | .setup data => [("data", announcement data)]
    | .askDecision number state => [("data", observed number state)]
    | .saveReward number reward =>
      [("data", .record [("action_id", .natural number), ("reward", .real reward)])]
    | .retrain number state => [("data", observed number state)]
    | .saveModel episode => [("episode_number", .natural episode)]
    | .nextEpisode => []

end FogDispatch.Wire

namespace FogDispatch.Request

/-- The line of a request, with its line end. -/
def line (request : Request Binary64) : String :=
  String.ofList ((Wire.document request).chars ++ ['\n'])

end FogDispatch.Request
