import Mathlib.Logic.Basic
import UtilityClass.Config

/-!
# Configurations and their settings

## Key results

- `ofSettings_eq_ok_iff`: a configuration has exactly the settings that it was built from
- `ofSettings_inj`: no two settings give the same configuration
- `ofSettings_usable` / `ofSettings_unusable`: which settings can be used
-/

namespace UtilityClass

/-- Settings that no token can be read under: the separator is empty or holds a square bracket or a
    blank, or the prefix holds a blank. -/
def Settings.Unusable (settings : Settings) : Prop :=
  settings.separator = [] ∨
    (∃ c ∈ settings.separator, c = '[' ∨ c = ']' ∨ Text.isBlank c = true) ∨
    ∃ c ∈ settings.classPrefix, Text.isBlank c = true

namespace Config

/-- A configuration has exactly the settings that it was built from. -/
theorem ofSettings_eq_ok_iff {settings : Settings} {config : Config} :
    ofSettings settings = .ok config ↔
      settings = ⟨config.separator, config.classPrefix, config.stripPrefix⟩ := by
  obtain ⟨sep, classPrefix, strip⟩ := settings
  constructor
  · intro h
    unfold ofSettings at h
    -- each of the three checks that the settings pass is one that a configuration carries
    split at h
    · cases h
    · split at h
      · split at h
        · rw [← Except.ok.inj h]
        · cases h
      · cases h
  · intro h
    obtain ⟨rfl, rfl, rfl⟩ := Settings.mk.inj h
    unfold ofSettings
    rw [dif_neg config.separator_ne_nil, dif_pos config.separator_ok, dif_pos config.classPrefix_ok]

/-- No two settings give the same configuration. -/
theorem ofSettings_inj {settings settings' : Settings} {config : Config}
    (h : ofSettings settings = .ok config) (h' : ofSettings settings' = .ok config) :
    settings = settings' := by
  rw [ofSettings_eq_ok_iff.1 h, ofSettings_eq_ok_iff.1 h']

/-- Settings are unusable exactly if no configuration is made of them. -/
theorem unusable_iff (settings : Settings) :
    settings.Unusable ↔ (ofSettings settings).isOk = false := by
  -- a bad character is one that the check of the separator does not let through
  have hbad : (∃ c ∈ settings.separator, c = '[' ∨ c = ']' ∨ Text.isBlank c = true) ↔
      ¬ isSeparatorText settings.separator = true := by
    simp [isSeparatorText, or_iff_not_imp_left]
  have hblank : (∃ c ∈ settings.classPrefix, Text.isBlank c = true) ↔
      ¬ isPrefixText settings.classPrefix = true := by
    simp [isPrefixText]
  rw [Settings.Unusable, hbad, hblank, ← Bool.not_eq_true, ofSettings_isOk_iff, not_and_or,
    not_and_or, not_not]

instance (settings : Settings) : Decidable settings.Unusable :=
  decidable_of_iff _ (unusable_iff settings).symm

/-- Unusable settings are refused. -/
theorem ofSettings_unusable {settings : Settings} (h : settings.Unusable) :
    ∃ e, ofSettings settings = .error e := by
  rw [unusable_iff] at h
  cases hconfig : ofSettings settings with
  | error e => exact ⟨e, rfl⟩
  | ok config => rw [hconfig] at h; exact nomatch h

/-- All other settings make a configuration, which has them. -/
theorem ofSettings_usable {settings : Settings} (h : ¬ settings.Unusable) :
    ∃ config, ofSettings settings = .ok config ∧ config.separator = settings.separator ∧
      config.classPrefix = settings.classPrefix ∧ config.stripPrefix = settings.stripPrefix := by
  rw [unusable_iff] at h
  cases hconfig : ofSettings settings with
  | error e => rw [hconfig] at h; exact absurd rfl h
  | ok config =>
    have hsettings := ofSettings_eq_ok_iff.1 hconfig
    exact ⟨config, rfl, by rw [hsettings], by rw [hsettings], by rw [hsettings]⟩

end Config

end UtilityClass
