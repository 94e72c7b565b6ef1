import PenPlot.Device
import PenPlot.Files.Tree
import PenPlot.Main
import PenPlot.Proofs.Alignment
import PenPlot.Proofs.Batches
import PenPlot.Proofs.ByteOrder
import PenPlot.Proofs.CallLog
import PenPlot.Proofs.Canonical
import PenPlot.Proofs.CheckedFiles
import PenPlot.Proofs.CommandLanguage
import PenPlot.Proofs.Demos
import PenPlot.Proofs.DocumentText
import PenPlot.Proofs.DrawnValues
import PenPlot.Proofs.DrawnCalls
import PenPlot.Proofs.Faults
import PenPlot.Proofs.FirstFailure
import PenPlot.Proofs.GalleryCards
import PenPlot.Proofs.Inscribed
import PenPlot.Proofs.LetterCase
import PenPlot.Proofs.LineByLine
import PenPlot.Proofs.Lines
import PenPlot.Proofs.Markup
import PenPlot.Proofs.Moves
import PenPlot.Proofs.Numerals
import PenPlot.Proofs.OneLine
import PenPlot.Proofs.Openings
import PenPlot.Proofs.PageMarkup
import PenPlot.Proofs.Past
import PenPlot.Proofs.Picture
import PenPlot.Proofs.Places
import PenPlot.Proofs.PlainReading
import PenPlot.Proofs.Reload
import PenPlot.Proofs.RenderedFile
import PenPlot.Proofs.Replay
import PenPlot.Proofs.ReportedSpans
import PenPlot.Proofs.Slices
import PenPlot.Proofs.SourceText
import PenPlot.Proofs.Strictness
import PenPlot.Proofs.Transcript
import PenPlot.Proofs.UsedCanvas
import PenPlot.Proofs.WholeWords
