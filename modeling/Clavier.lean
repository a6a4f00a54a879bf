import Clavier.Exercise.Drill
import Clavier.Practice.Studio
import Clavier.Proofs.Braces
import Clavier.Proofs.Runs
import Clavier.Proofs.Scanning
import Clavier.Proofs.Comments
import Clavier.Proofs.Spellings
import Clavier.Proofs.MovedNotes
import Clavier.Proofs.Transpositions
import Clavier.Proofs.Markers
import Clavier.Proofs.Headers
import Clavier.Proofs.Cuts
import Clavier.Proofs.Parking
import Clavier.Proofs.OnePass
import Clavier.Proofs.Earned
import Clavier.Proofs.DocumentScores
import Clavier.Proofs.Programs
import Clavier.Proofs.Inlining
import Clavier.Proofs.InlinedVoices
import Clavier.Proofs.ResolvedNotes
import Clavier.Proofs.Folding
import Clavier.Proofs.Anchors
import Clavier.Proofs.VoiceHeaders
import Clavier.Proofs.ForgedMarkers
import Clavier.Proofs.InertComments
import Clavier.Proofs.CommentedScores
import Clavier.Proofs.ExportedScores
import Clavier.Proofs.Positions
import Clavier.Proofs.Playthroughs
import Clavier.Proofs.StudioRuns
import Clavier.Proofs.LoneSpellings
import Clavier.Proofs.TrimmedDocuments
import Clavier.Proofs.NotePlaces
import Clavier.Proofs.MovedScans
import Clavier.Proofs.Commands
import Clavier.Proofs.CommandedNotes
import Clavier.Proofs.Budgets
import Clavier.Proofs.StandardExports
import Clavier.Proofs.BundledFiles
import Clavier.Proofs.StudioReplies
import Clavier.Proofs.VoiceItems
import Clavier.Proofs.Chords
import Clavier.Proofs.OctaveRuns
import Clavier.Proofs.KeySignatures
import Clavier.Proofs.SpelledWords
import Clavier.Proofs.HeaderFields
import Clavier.Proofs.NamedParts
import Clavier.Proofs.StrictDecoding
import Clavier.Proofs.ReadableScores
import Clavier.Proofs.ReorderedSongs
import Clavier.Proofs.PressReports
import Clavier.Proofs.DeclaredTexts
import Clavier.Proofs.QuotedPaths
import Clavier.Proofs.Definitions
import Clavier.Proofs.Progress
import Clavier.Proofs.ClosingBraces
