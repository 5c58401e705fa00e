import Calculator.Expression
import Calculator.Rendering
import Calculator.Source
import Calculator.Cursor
import Calculator.Grammar
import Calculator.Log
import Calculator.Reading
import Calculator.CharacterClass
import Calculator.TextFile
import Calculator.Arguments
import Calculator.Session
import Calculator.Main
import Calculator.Proofs.Reading.Walk
import Calculator.Proofs.Reading.Derivation
import Calculator.Proofs.Reading.Viability
import Calculator.Proofs.Reading.Blanks
import Calculator.Proofs.Reading.Uncounted
import Calculator.Proofs.Binary64.Format
import Calculator.Proofs.Binary64.Nearest
import Calculator.Proofs.Binary64.Magnitude
import Calculator.Proofs.Binary64.Order
import Calculator.Proofs.Rendering.Numeral
import Calculator.Proofs.Rendering.Reparse
import Calculator.Proofs.Binary64.Arithmetic
import Calculator.Proofs.Evaluation.Formula
import Calculator.Proofs.Evaluation.Integers
import Calculator.Proofs.Evaluation.Leaves
import Calculator.Proofs.Evaluation.LeadingZeros
import Calculator.Proofs.Evaluation.Fraction
import Calculator.Proofs.Reading.Diagnostics
import Calculator.Proofs.Reading.History
import Calculator.Proofs.Reading.Trail
import Calculator.Proofs.Reading.Descent
import Calculator.Proofs.Reading.Agreement
import Calculator.Proofs.Reading.LogOrder
import Calculator.Proofs.Session.Batch
import Calculator.Proofs.Session.Composition
import Calculator.Proofs.Rendering.IntegerLeaves
import Calculator.Proofs.Rendering.Readability
import Calculator.Proofs.Evaluation.Accuracy
import Calculator.Proofs.Evaluation.Overflow
import Calculator.Proofs.Rendering.Drift
