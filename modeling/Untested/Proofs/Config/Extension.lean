/-
# Configurations by the extension of their file

Without a known extension a configuration is what YAML makes of its text, and what TOML makes of it
only if it is none in YAML.  So whatever loads in TOML still loads, but a text that is a
configuration in both languages, and means another one in YAML, loads as the latter.
-/

import Untested.Config.Load
import Untested.Host.Machine
import Untested.Proofs.Config.FirstLine

namespace Untested.Config

/-- Whether the extension of a file says in which language it is written. -/
def HasKnownExtension (path : String) : Prop :=
  Path.extension? path ∈ [some "yml", some "yaml", some "toml"]

instance (path : String) : Decidable (HasKnownExtension path) :=
  inferInstanceAs (Decidable (_ ∈ _))

/-- The configuration in the text of a file. -/
def ofText (path text : String) : Except Fault Config :=
  match read? (Path.extension? path) text with
  | some config => .ok config
  | none => .error (.malformedConfig path)

variable {path tomlPath ymlPath text : String} {config : Config}

/-- To load a configuration is to read a text and to make a configuration of it. -/
theorem load_eq {m : Type → Type} [Monad m] [LawfulMonad m] (host : Host m) (path : String) :
    load host path = (·.bind (ofText path)) <$> host.readText path := by
  rw [load, map_eq_pure_bind]
  congr 1
  funext text?
  cases text? with
  | error fault => rfl
  | ok text =>
      dsimp only [Function.comp, Except.bind, ofText]
      cases read? (Path.extension? path) text <;> rfl

theorem ofText_eq_ok_iff :
    ofText path text = .ok config ↔ read? (Path.extension? path) text = some config := by
  rw [ofText]
  split
  · rename_i hread
    rw [hread, Except.ok.injEq, Option.some.injEq]
  · rename_i hread
    rw [hread]
    exact ⟨nofun, nofun⟩

theorem ofText_eq_ok_iff_of_toml (hpath : Path.extension? path = some "toml") :
    ofText path text = .ok config ↔ readToml? text = some config := by
  rw [ofText_eq_ok_iff, hpath]
  rfl

theorem ofText_eq_ok_iff_of_yml (hpath : Path.extension? path = some "yml") :
    ofText path text = .ok config ↔ readYaml? text = some config := by
  rw [ofText_eq_ok_iff, hpath]
  rfl

theorem ofText_eq_ok_iff_of_unknown (hpath : ¬ HasKnownExtension path) :
    ofText path text = .ok config ↔ (readYaml? text).or (readToml? text) = some config := by
  simp only [HasKnownExtension, List.mem_cons, List.not_mem_nil, or_false, not_or] at hpath
  rw [ofText_eq_ok_iff, read?, if_neg (by simp [hpath.1, hpath.2.1]), if_neg hpath.2.2]

/-- Without a known extension, a text loads as the configuration that it is in YAML if it is one,
and otherwise as the one that it is in TOML.  Whatever loads in TOML loads, as the same
configuration if it opens without a key of YAML. -/
theorem load_without_known_extension {m : Type → Type} [Monad m] [LawfulMonad m] (host : Host m)
    (htoml : Path.extension? tomlPath = some "toml") (hyml : Path.extension? ymlPath = some "yml")
    (hpath : ¬ HasKnownExtension path) :
    (∀ path, load host path = (·.bind (ofText path)) <$> host.readText path) ∧
    (∀ text config, ofText path text = .ok config ↔ ofText ymlPath text = .ok config ∨
      (∀ other, ofText ymlPath text ≠ .ok other) ∧ ofText tomlPath text = .ok config) ∧
    ∀ text config, ofText tomlPath text = .ok config →
      (∃ loaded, ofText path text = .ok loaded) ∧
      (OpensWithoutKey text → ofText path text = .ok config) := by
  refine ⟨load_eq host, ?_, ?_⟩
  · intro text config
    simp only [ofText_eq_ok_iff_of_unknown hpath, ofText_eq_ok_iff_of_yml hyml,
      ofText_eq_ok_iff_of_toml htoml, ne_eq]
    rw [Option.or_eq_some_iff, Option.eq_none_iff_forall_ne_some]
  · intro text config hload
    rw [ofText_eq_ok_iff_of_toml htoml] at hload
    simp only [ofText_eq_ok_iff_of_unknown hpath, hload]
    cases hyaml : readYaml? text with
    | none => exact ⟨⟨config, rfl⟩, fun _ => rfl⟩
    | some other =>
        refine ⟨⟨other, rfl⟩, fun hplain => ?_⟩
        rcases readYaml?_of_opensWithoutKey hplain hload with hnone | hsame
        · rw [hnone] at hyaml
          cases hyaml
        · obtain rfl := Option.some.inj (hyaml.symm.trans hsame)
          rfl

/-- A heading of TOML is a sequence in YAML with more behind it, which is no document. -/
theorem load_without_known_extension_heading :
    Path.extension? "settings.toml" = some "toml" ∧ Path.extension? "settings.yml" = some "yml" ∧
      ¬ HasKnownExtension "settings" ∧ OpensWithoutKey "[report]\nformat = \"json\"\n" ∧
      ofText "settings.toml" "[report]\nformat = \"json\"\n" = .ok { format := "json" } ∧
      ofText "settings" "[report]\nformat = \"json\"\n" = .ok { format := "json" } := by
  have htoml : Path.extension? "settings.toml" = some "toml" := by decide +kernel
  have hyml : Path.extension? "settings.yml" = some "yml" := by decide +kernel
  have hpath : ¬ HasKnownExtension "settings" := by decide +kernel
  have hplain : OpensWithoutKey "[report]\nformat = \"json\"\n" := by decide +kernel
  have hload : ofText "settings.toml" "[report]\nformat = \"json\"\n" =
      .ok { format := "json" } := by
    rw [ofText_eq_ok_iff_of_toml htoml]
    decide +kernel
  have hunknown := load_without_known_extension Machine.host htoml hyml hpath
  exact ⟨htoml, hyml, hpath, hplain, hload, (hunknown.2.2 _ _ hload).2 hplain⟩

/-- A colon in the value of a setting may make a key of what is before it.  The text is then a
configuration in YAML as well, and the setting is lost. -/
theorem not_load_like_toml :
    ¬ ∀ path tomlPath text config, Path.extension? tomlPath = some "toml" →
      ¬ HasKnownExtension path → ofText tomlPath text = .ok config →
        ofText path text = .ok config := by
  intro hlike
  have hload : ofText "settings.toml" "package = \"a: b\"\n" = .ok { package := some "a: b" } := by
    rw [ofText_eq_ok_iff_of_toml (by decide +kernel)]
    decide +kernel
  have hsame := hlike "settings" "settings.toml" _ _ (by decide +kernel) (by decide +kernel) hload
  rw [ofText_eq_ok_iff_of_unknown (by decide +kernel)] at hsame
  revert hsame
  decide +kernel

end Untested.Config
