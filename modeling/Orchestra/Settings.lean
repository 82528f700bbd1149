import Orchestra.Json.Printer
import Orchestra.Json.Reader
import Orchestra.Json.Record

namespace Orchestra

/-- Wishes about a completion. They travel with every call, and only the completion service reads
them. Values the library does not know are kept under their names, sorted. -/
structure Settings where
  temperature : Option Float := none
  topP : Option Float := none
  presencePenalty : Option Float := none
  frequencyPenalty : Option Float := none
  maxTokens : Option UInt32 := none
  stopSequences : List String := []
  extra : List (String × Json) := []

namespace Settings

instance : Inhabited Settings := ⟨{}⟩

def fieldNames : List String :=
  ["temperature", "topP", "presencePenalty", "frequencyPenalty", "maxTokens", "stopSequences"]

def isDefault (s : Settings) : Bool :=
  s.temperature.isNone && s.topP.isNone && s.presencePenalty.isNone && s.frequencyPenalty.isNone &&
    s.maxTokens.isNone && s.stopSequences.isEmpty && s.extra.isEmpty

def floatMember (name : String) (x : Option Float) : List (String × Json) :=
  x.toList.map fun x => (name, .number (.float x))

def toJson (s : Settings) : Json :=
  .object <|
    floatMember "temperature" s.temperature ++ floatMember "topP" s.topP ++
    floatMember "presencePenalty" s.presencePenalty ++
    floatMember "frequencyPenalty" s.frequencyPenalty ++
    s.maxTokens.toList.map (fun n => ("maxTokens", .ofNat n.toNat)) ++
    (if s.stopSequences.isEmpty then [] else [("stopSequences", .strings s.stopSequences)]) ++
    s.extra

def word32? (j : Json) : Option UInt32 :=
  (j.natBelow? UInt32.size).map UInt32.ofNat

def ofJson? (j : Json) : Option Settings := do
  let .object members := j | none
  let r ← j.record? fieldNames
  let others := members.filter fun m => m.1 ∉ fieldNames
  return {
    temperature := ← r.optional? "temperature" none (Json.nullable? Json.float?)
    topP := ← r.optional? "topP" none (Json.nullable? Json.float?)
    presencePenalty := ← r.optional? "presencePenalty" none (Json.nullable? Json.float?)
    frequencyPenalty := ← r.optional? "frequencyPenalty" none (Json.nullable? Json.float?)
    maxTokens := ← r.optional? "maxTokens" none (Json.nullable? word32?)
    stopSequences := ← r.optional? "stopSequences" [] (Json.list? Json.text?)
    extra := Json.sortMembers (← Json.sortedMembers? others) }

def parse? (text : String) : Option Settings := do
  ofJson? (← Json.parse? text)

def text (s : Settings) : String :=
  s.toJson.compact

end Settings

end Orchestra
