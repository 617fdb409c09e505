/-!
# Layouts

Style sheets are printed for readers or for size.
-/

namespace AtomicCss

inductive Layout
  | pretty
  | minified
  deriving DecidableEq, Repr

end AtomicCss
