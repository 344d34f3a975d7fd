import Mathlib.Tactic.Common
import Runbook.Catalog.Extraction
import Runbook.Proofs.Json.Reading

/-! The same data are the same settings in JSON and in YAML, or fail alike. Only in YAML are data
that are void no settings at all, whatever their shape. -/
namespace Runbook

def Value.IsMapping (v : Value) : Prop := ∃ entries, v = .map entries

namespace Catalog

/-- What a block of settings with these data has to give at its place. -/
inductive Settled (site : Site) : Value → Except Failure Settings → Prop
  | valid {entries : List (Value × Value)} {settings : Settings}
      (good : Schema.settings (.map entries) = .good settings) :
      Settled site (.map entries) (.ok settings)
  | invalid {entries : List (Value × Value)} {issues : List Issue}
      (bad : Schema.settings (.map entries) = .bad issues) :
      Settled site (.map entries) (.error (.catalog site (.settingsInvalid issues)))
  | shapeless {v : Value} (noMapping : ¬ v.IsMapping) :
      Settled site v (.error (.catalog site .settingsNotMapping))

section Data
variable {site : Site} {v : Value}

lemma settingsOf_settled (site : Site) (v : Value) : Settled site v (settingsOf site (.ok v)) := by
  unfold settingsOf
  split
  · next h => cases h
  · next h => cases h
  · next entries h =>
    obtain rfl := Except.ok.inj h
    split
    · next good => exact .valid good
    · next bad => exact .invalid bad
  · next other hother h =>
    obtain rfl := Except.ok.inj h
    exact .shapeless fun ⟨entries, hv⟩ => hother entries (hv ▸ rfl)

lemma settingsOf_shapeless (site : Site) (h : ¬ v.IsMapping) :
    settingsOf site (.ok v) = .error (.catalog site .settingsNotMapping) := by
  cases v with
  | map entries => exact absurd ⟨entries, rfl⟩ h
  | _ => rfl

lemma ofYaml_eq (h : v.isVoid = true → v.IsMapping) : ofYaml (.ok v) = .ok v := by
  cases hv : v.isVoid with
  | false => simp [ofYaml, hv]
  | true =>
    obtain ⟨entries, rfl⟩ := h hv
    obtain rfl : entries = [] := List.isEmpty_iff.mp hv
    rfl

lemma settingsOf_void (site : Site) (h : v.isVoid = true) :
    settingsOf site (ofYaml (.ok v)) = .ok {} := by
  have hdata : ofYaml (.ok v) = .ok (.map []) := by simp [ofYaml, h]
  have hempty : Schema.settings (.map []) = .good {} := by decide +kernel
  rw [hdata, settingsOf, hempty]

end Data

section Blocks
variable {reader : Yaml.Reader} {site : Site} {s : Text} {v : Value}

lemma readSettings_json {language : Language} (hlanguage : language = .json ∨ language = .none)
    (h : Json.parse s = .ok v) :
    (readSettings reader site language s).1 = settingsOf site (.ok v) := by
  have hdecode : decodeJson s = .ok v := by
    rw [decodeJson, if_neg (by simp [Json.not_isBlankText_of_parse h]), h]
  rcases hlanguage with rfl | rfl
  all_goals rw [readSettings, decode, hdecode]

lemma readSettings_yaml (h : (reader.read s).1 = .ok v) :
    (readSettings reader site .yaml s).1 = settingsOf site (ofYaml (.ok v)) := by
  rw [← h]
  rfl

end Blocks

/-- Data in JSON are settings if they are a mapping of them, and the same data in YAML are the same
settings or fail alike, unless they are void but no mapping. Those are refused in JSON only. -/
theorem readSettings_decoded (reader other : Yaml.Reader) (site : Site) {language : Language}
    (hlanguage : language = .json ∨ language = .none) {s t : Text} {v : Value}
    (hs : Json.parse s = .ok v) (ht : (reader.read t).1 = .ok v) :
    Settled site v (readSettings other site language s).1 ∧
      ((readSettings other site language s).1 = (readSettings reader site .yaml t).1 ↔
        (v.isVoid = true → v.IsMapping)) ∧
      (¬ v.IsMapping → ∃ failure : Failure,
        (readSettings other site language s).1 = .error failure ∧
        (readSettings reader site .yaml t).1 = (if v.isVoid then .ok {} else .error failure) ∧
        failure.message = site.show ++ " Config block must be a mapping") := by
  rw [readSettings_json hlanguage hs, readSettings_yaml ht]
  refine ⟨settingsOf_settled site v, ⟨fun heq hvoid => ?_, fun h => by rw [ofYaml_eq h]⟩,
    fun h => ?_⟩
  · by_contra hshape
    rw [settingsOf_shapeless site hshape, settingsOf_void site hvoid] at heq
    cases heq
  · refine ⟨_, settingsOf_shapeless site h, ?_, rfl⟩
    cases hvoid : v.isVoid with
    | true => rw [settingsOf_void site hvoid, if_pos rfl]
    | false =>
      rw [ofYaml_eq (by simp [hvoid]), settingsOf_shapeless site h, if_neg Bool.noConfusion]

/-- Settings that are written alike in both languages. -/
def terminalSettings : Text := "\x7b\"terminal\": \"kitty\"\x7d"

def terminalData : Value := .map [(.text "terminal", .text "kitty")]

theorem readSettings_terminal :
    Json.parse terminalSettings = .ok terminalData ∧
      (Yaml.Reader.read {} terminalSettings).1 = .ok terminalData ∧
      (readSettings {} ⟨"notes.md", some 1⟩ .json terminalSettings).1 =
        (readSettings {} ⟨"notes.md", some 1⟩ .yaml terminalSettings).1 := by
  have hjson : Json.parse terminalSettings = .ok terminalData := by decide +kernel
  have hyaml : (Yaml.Reader.read {} terminalSettings).1 = .ok terminalData := by decide +kernel
  have h := readSettings_decoded {} {} ⟨"notes.md", some 1⟩ (.inl rfl) hjson hyaml
  exact ⟨hjson, hyaml, h.2.1.mpr fun _ => ⟨_, rfl⟩⟩

/-- An empty list is no mapping. Only in YAML it has settings. -/
theorem readSettings_emptyList :
    Json.parse "[]" = .ok (.list []) ∧ (Yaml.Reader.read {} "[]").1 = .ok (.list []) ∧
      (readSettings {} ⟨"notes.md", some 1⟩ .json "[]").1 =
        .error (.catalog ⟨"notes.md", some 1⟩ .settingsNotMapping) ∧
      (readSettings {} ⟨"notes.md", some 1⟩ .yaml "[]").1 = .ok {} := by
  have hjson : Json.parse "[]" = .ok (.list []) := by decide +kernel
  have hyaml : (Yaml.Reader.read {} "[]").1 = .ok (.list []) := by decide +kernel
  refine ⟨hjson, hyaml, ?_, ?_⟩
  · rw [readSettings_json (.inl rfl) hjson]
    rfl
  · rw [readSettings_yaml hyaml]
    exact settingsOf_void _ rfl

end Catalog
end Runbook
