import FencedCode.Config
import FencedCode.Proofs.Toml.Documents

/-!
# Configurations that were written

A configuration is written as a document of two lines, and what is loaded from it is that
configuration, whatever its languages are called.
-/

namespace FencedCode.Config

private theorem strings?_map (ss : List String) :
    strings? (.array ((ss.map String.toList).map .string)) = some ss := by
  rw [strings?, List.map_map, List.mapM_map]
  simpa [Function.comp_def] using List.mapM_pure (m := Option) (l := ss) (f := id)

/-- The lines of a configuration. -/
def lines (c : Config) : List Toml.Line :=
  [⟨languagesKey, _, _, ⟨by decide, by decide⟩,
      Toml.writes_writeStrings (c.languages.map String.toList)⟩,
    ⟨skipMarkedKey, _, _, ⟨by decide, by decide⟩, Toml.writes_writeBool c.skipMarked⟩]

private theorem write_eq (c : Config) : c.write = Toml.linesText c.lines := by
  simp [write, Toml.linesText, lines, Toml.Line.text]

private theorem map_member_lines (c : Config) : c.lines.map Toml.Line.member =
    [(languagesKey.toList, .array ((c.languages.map String.toList).map .string)),
      (skipMarkedKey.toList, .boolean c.skipMarked)] := rfl

private theorem nodup_keys : [languagesKey.toList, skipMarkedKey.toList].Nodup := by decide

private theorem skipMarkedKey_beq :
    (skipMarkedKey.toList == languagesKey.toList) = false := by decide

private theorem read?_write (c : Config) : read? c.write = some c := by
  have hread : Toml.read? c.write = some (c.lines.map Toml.Line.member) := by
    rw [write_eq]
    refine Toml.read?_linesText ?_
    rw [map_member_lines]
    exact nodup_keys
  rw [read?, hread, map_member_lines]
  simp only [Option.bind_eq_bind, Option.bind_some, member?, List.lookup_cons, beq_self_eq_true,
    skipMarkedKey_beq, strings?_map]
  rfl

/-- A configuration is loaded from the text that it was written as. -/
theorem load_write (path : String) (c : Config) :
    load path (.ok c.write) = .ok (some c) := by
  rw [load, read?_write]

end FencedCode.Config
