import DirectivePack.Main
import DirectivePack.Proofs.Format.Grammar
import DirectivePack.Proofs.Format.CanonicalText
import DirectivePack.Proofs.Digits.Groups
import DirectivePack.Proofs.Field.Compressed
import DirectivePack.Proofs.Field.Padded
import DirectivePack.Proofs.Field.Word
import DirectivePack.Proofs.Base64.Lines
import DirectivePack.Proofs.RoundTrip.Elements
import DirectivePack.Proofs.Text.Characters
import DirectivePack.Proofs.RoundTrip.Packed
import DirectivePack.Proofs.RoundTrip.Unpacked
import DirectivePack.Proofs.RoundTrip.Characters
import DirectivePack.Proofs.Base64.Segments
import DirectivePack.Proofs.Field.ShortestForm
import DirectivePack.Proofs.Format.Joined
import DirectivePack.Proofs.Format.FaultPlaces
import DirectivePack.Proofs.Program.Joined
import DirectivePack.Proofs.Program.Places
import DirectivePack.Proofs.Program.Repetition
import DirectivePack.Proofs.Program.Faults
import DirectivePack.Proofs.Program.Accounting
import DirectivePack.Proofs.Program.Layout
import DirectivePack.Proofs.Program.Synonyms
import DirectivePack.Proofs.Text.Split
import DirectivePack.Proofs.Command.AllOrNothing
import DirectivePack.Proofs.Command.FilterIndependence
import DirectivePack.Proofs.Field.TwosComplement
import DirectivePack.Proofs.Program.Integers
import DirectivePack.Proofs.Digits.HexAndBits
import DirectivePack.Proofs.Program.DigitStrings
import DirectivePack.Proofs.Program.RawStrings
import DirectivePack.Proofs.Base64.Decoding
import DirectivePack.Proofs.Program.Base64Texts
import DirectivePack.Proofs.Float.Magnitudes
import DirectivePack.Proofs.Float.Rounding
import DirectivePack.Proofs.Float.Conversions
import DirectivePack.Proofs.Program.Floats
import DirectivePack.Proofs.Text.Numerals
import DirectivePack.Proofs.Digits.HexTexts
import DirectivePack.Proofs.Command.Arguments
import DirectivePack.Proofs.Program.BrokenText
import DirectivePack.Proofs.Command.InputLimit
import DirectivePack.Proofs.Command.RenderedBytes
import DirectivePack.Proofs.Json.Values
import DirectivePack.Proofs.Config.Precedence
