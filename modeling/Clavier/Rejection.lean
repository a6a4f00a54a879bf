import Clavier.Fault
import Clavier.Score.Basic
import Clavier.Text.Numeral
import Clavier.Text.ShellWords

/-!
# Rejections

A rejection refuses a request and says why. Its message is the text the player
reads. An operation that does not succeed either rejects its request or stops with
a fault.
-/

set_option autoImplicit false

namespace Clavier

/-- Why a request is refused. -/
inductive Rejection where
  | unknownVoice (name : Text)
  | keyOutsideMidi (hand : Hand) (number : Nat) (label : Text) (key : Int)
  | noSourceText
  | badQuoting (command : Text) (defect : Text.QuotingDefect)
  | notOnePath (command : Text)
  | notANumber (text : Text)
  | noSuchPosition (position : Int) (total : Nat)
  | noScore
  | unreadableDocument (path detail : Text)
  | unreadableMidi (path detail : Text)
  | unwritableMidi (path detail : Text)
  deriving DecidableEq

/-- A text in single quotes. -/
def inQuotes (text : Text) : Text := '\x27' :: (text ++ ['\x27'])

/-- The text that explains a rejection. -/
def Rejection.message : Rejection → Text
  | .unknownVoice name =>
      "Unknown voice ".toList ++ inQuotes name ++ " (expected one of: ".toList ++
        Text.joinWith ", ".toList (Hand.all.map Hand.voiceName) ++ ")".toList
  | .keyOutsideMidi hand number label key =>
      hand.voiceName ++ " note ".toList ++ Text.ofNat number ++ " (".toList ++ label ++
        ") has MIDI number ".toList ++ Text.ofInt key ++ ", outside 0-127".toList
  | .noSourceText => "source needs notation text".toList
  | .badQuoting command defect => command ++ ": ".toList ++ defect.message
  | .notOnePath command => command ++ " needs exactly one path".toList
  | .notANumber text => "goto needs a note number, got ".toList ++ inQuotes text
  | .noSuchPosition position total =>
      "Note ".toList ++ Text.ofInt position ++ " out of range (1-".toList ++
        Text.ofNat total ++ ")".toList
  | .noScore => "No score loaded".toList
  | .unreadableDocument path detail =>
      "Cannot read document ".toList ++ inQuotes path ++ ": ".toList ++ detail
  | .unreadableMidi path detail =>
      "Cannot read MIDI file ".toList ++ inQuotes path ++ ": ".toList ++ detail
  | .unwritableMidi path detail =>
      "Cannot write MIDI file ".toList ++ inQuotes path ++ ": ".toList ++ detail

/-- How an operation does not succeed. -/
inductive Failure where
  | rejected (rejection : Rejection)
  | faulted (fault : Fault)
  deriving DecidableEq

/-- The result of an operation whose only failures are faults. -/
def orFault {α : Type} (result : Except Fault α) : Except Failure α :=
  result.mapError Failure.faulted

/-- The notes of the voice of a name. -/
def Score.voiceNamed (score : Score) (name : Text) : Except Rejection (List Note) :=
  match Hand.ofVoiceName? name with
  | some hand => .ok (score.voice hand)
  | none => .error (.unknownVoice name)

end Clavier
