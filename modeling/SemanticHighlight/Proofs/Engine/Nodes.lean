import SemanticHighlight.Engine.Basic
import SemanticHighlight.Proofs.Checked
import SemanticHighlight.Proofs.Position.Point

/-!
# Nodes in order

A source whose nodes do not stop before they start makes an engine that finds no inverted range,
whatever the text (`search_total`), and whose captures begin and end within lines of the text
(`search_withinLine`).
-/

namespace SemanticHighlight

/-- A node that does not stop before it starts, in rows and columns that are not negative. -/
structure Node.Ordered (node : Node) : Prop where
  start_row : 0 ≤ node.start.row
  start_column : 0 ≤ node.start.column
  stop_row : 0 ≤ node.stop.row
  stop_column : 0 ≤ node.stop.column
  notAfter : node.start.NotAfter node.stop

def NodeSource.Ordered {Grammar Query : Type} (source : NodeSource Grammar Query) : Prop :=
  ∀ query t, ∀ found ∈ source.search query t t.encodeUtf8, ∀ named ∈ found.captures,
    named.2.Ordered

/-- The position stands in its line, or at the end of it. -/
def Position.WithinLine (t : Text) (p : Position) : Prop :=
  0 ≤ p.column ∧ p.column ≤ ((LineIndex.ofText t).line p.line).utf16Length

theorem LineIndex.ofPoint_withinLine (t : Text) {p : Point} (h : 0 ≤ p.column) :
    ((ofText t).ofPoint p).WithinLine t :=
  ⟨columnOf_nonneg _ h, columnOf_le _ h⟩

theorem Node.Ordered.capture_ok {node : Node} (h : node.Ordered) (t : Text) (bytes : Octets)
    (name : Text) : ∃ c, node.capture (LineIndex.ofText t) bytes name = .ok c := by
  have hle := (LineIndex.ofText t).ofPoint_le_ofPoint h.start_column h.notAfter
  unfold Node.capture
  rw [Range.ofEnds?, dif_pos hle]
  exact ⟨_, rfl⟩

theorem Node.Ordered.capture_withinLine {node : Node} (h : node.Ordered) {t : Text}
    {bytes : Octets} {name : Text} {c : Capture}
    (hc : node.capture (LineIndex.ofText t) bytes name = .ok c) :
    c.range.start.WithinLine t ∧ c.range.stop.WithinLine t := by
  obtain ⟨range, hrange, hpure⟩ := bind_eq_ok.mp hc
  obtain ⟨hstart, hstop⟩ := Range.ofEnds?_eq_ok.mp hrange
  rw [← Except.ok.inj hpure, hstart, hstop]
  exact ⟨LineIndex.ofPoint_withinLine t h.start_column, LineIndex.ofPoint_withinLine t h.stop_column⟩

namespace NodeMatch

variable {found : NodeMatch} {t : Text} {bytes : Octets}

theorem capture_total (h : ∀ named ∈ found.captures, named.2.Ordered) :
    ∃ m, found.capture (LineIndex.ofText t) bytes = .ok m := by
  obtain ⟨captures, hcaptures⟩ :=
    mapM_total fun named hnamed => (h named hnamed).capture_ok t bytes named.1
  exact ⟨_, bind_eq_ok.mpr ⟨captures, hcaptures, rfl⟩⟩

theorem capture_withinLine (h : ∀ named ∈ found.captures, named.2.Ordered) {m : Match}
    (hm : found.capture (LineIndex.ofText t) bytes = .ok m) :
    ∀ c ∈ m.captures, c.range.start.WithinLine t ∧ c.range.stop.WithinLine t := by
  intro c hc
  obtain ⟨captures, hcaptures, hpure⟩ := bind_eq_ok.mp hm
  rw [← Except.ok.inj hpure] at hc
  obtain ⟨named, hnamed, hcapture⟩ := mapM_mem hcaptures hc
  exact (h named hnamed).capture_withinLine hcapture

end NodeMatch

namespace Engine

variable {Grammar Query : Type} {source : NodeSource Grammar Query}

theorem search_total (h : source.Ordered) (query : Query) (t : Text) :
    ∃ found, (ofNodes source).search query t = .ok found :=
  mapM_total fun found hfound => NodeMatch.capture_total (h query t found hfound)

theorem search_withinLine (h : source.Ordered) {query : Query} {t : Text} {found : List Match}
    (hfound : (ofNodes source).search query t = .ok found) :
    ∀ m ∈ found, ∀ c ∈ m.captures, c.range.start.WithinLine t ∧ c.range.stop.WithinLine t := by
  intro m hm
  obtain ⟨reported, hreported, hcapture⟩ := mapM_mem hfound hm
  exact NodeMatch.capture_withinLine (h query t reported hreported) hcapture

end Engine
end SemanticHighlight
