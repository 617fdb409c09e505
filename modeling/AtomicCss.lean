import AtomicCss.Main
import AtomicCss.Proofs.Candidate.Segments
import AtomicCss.Proofs.Compiler.Wrapping
import AtomicCss.Proofs.Selector.ClassName
import AtomicCss.Proofs.Selector.Containment
import AtomicCss.Proofs.Compiler.Refusals
import AtomicCss.Proofs.Compiler.Batches
import AtomicCss.Proofs.Rule.Frame
import AtomicCss.Proofs.Selector.Subject
import AtomicCss.Proofs.Candidate.Balance
import AtomicCss.Proofs.Candidate.Breaks
import AtomicCss.Proofs.Selector.Balance
import AtomicCss.Proofs.Catalog.Declared
import AtomicCss.Proofs.Identifier.Spelling
import AtomicCss.Proofs.Rule.Interleaving
import AtomicCss.Proofs.Compiler.Explanation
import AtomicCss.Proofs.CommandLine.AllOrNothing
import AtomicCss.Proofs.CommandLine.Piping
import AtomicCss.Proofs.CommandLine.Readings
import AtomicCss.Proofs.Selector.Template
import AtomicCss.Proofs.Bracket.Slots
import AtomicCss.Proofs.Fragment.Composition
import AtomicCss.Proofs.Fragment.Spacing
import AtomicCss.Proofs.Bracket.Writing
import AtomicCss.Proofs.Identifier.Decoding
import AtomicCss.Proofs.Literal.Reading
import AtomicCss.Proofs.Selector.Attributes
import AtomicCss.Proofs.Variant.Leads
import AtomicCss.Proofs.Variant.Shorthand
import AtomicCss.Proofs.AtRule.Features
import AtomicCss.Proofs.AtRule.Formatting
import AtomicCss.Proofs.Fragment.Splicing
import AtomicCss.Proofs.Rule.Parts
import AtomicCss.Proofs.Rule.Rows
import AtomicCss.Proofs.Catalog.Shapes
import AtomicCss.Proofs.Catalog.Signs
import AtomicCss.Proofs.Catalog.Toggles
import AtomicCss.Proofs.Catalog.Quantities
import AtomicCss.Proofs.Catalog.Colors
import AtomicCss.Proofs.Catalog.Extension
import AtomicCss.Proofs.Rule.Minified
