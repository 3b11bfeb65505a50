import OscMonitor.Document.Printer

/-!
# Plain text of a value

The text that stands for a value where only text is kept: a text is itself, a number is written in
full, and everything else is JSON without spaces.
-/

namespace OscMonitor

def Value.plain : Value → Text
  | .text t => t
  | .int n => .ofInt n
  | .float x => x.text
  | v => v.compact

end OscMonitor
