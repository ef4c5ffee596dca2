import CurriedScript.Evaluate.Fuel
import CurriedScript.Main
import CurriedScript.Program.Printer
import CurriedScript.Repl
import CurriedScript.Proofs.Direct
import CurriedScript.Proofs.Ends
import CurriedScript.Proofs.Trampoline
import CurriedScript.Proofs.Grammar
import CurriedScript.Proofs.Productions
import CurriedScript.Proofs.ParserSound
import CurriedScript.Proofs.Alike
import CurriedScript.Proofs.ParserComplete
import CurriedScript.Proofs.Lockstep
import CurriedScript.Proofs.Currying
import CurriedScript.Proofs.Scoping
import CurriedScript.Proofs.Termination
import CurriedScript.Proofs.CallLimit
import CurriedScript.Proofs.Lines
import CurriedScript.Proofs.Chunks
import CurriedScript.Proofs.Lexemes
import CurriedScript.Proofs.Shape
import CurriedScript.Proofs.Printing
import CurriedScript.Proofs.RoundTrip
import CurriedScript.Proofs.Layout
import CurriedScript.Proofs.Spacing
import CurriedScript.Proofs.FirstFault
import CurriedScript.Proofs.Awaiting
import CurriedScript.Proofs.Capabilities
import CurriedScript.Proofs.SmallerTable
import CurriedScript.Proofs.Annotations
import CurriedScript.Proofs.Inclusion
import CurriedScript.Proofs.Taxonomy
import CurriedScript.Proofs.Atomicity
import CurriedScript.Proofs.Frames
import CurriedScript.Proofs.AnnotatedText
import CurriedScript.Proofs.ExactValues
import CurriedScript.Proofs.Order
import CurriedScript.Proofs.Sections
import CurriedScript.Proofs.Sentinel
import CurriedScript.Proofs.Bindings
import CurriedScript.Proofs.StringPieces
import CurriedScript.Proofs.Numbers
import CurriedScript.Proofs.BangCalls
import CurriedScript.Proofs.SymbolRuns
import CurriedScript.Proofs.EscapeLines
import CurriedScript.Proofs.InputLines
import CurriedScript.Proofs.ModulePaths
import CurriedScript.Proofs.OpenProductions
import CurriedScript.Proofs.Progress
