import RDPBlocker.Program.ConfigFile

/-! When a block time is the documented sum of the configured values. -/
namespace RDPBlocker
open Foundation
variable {B : Boost} {S : Spdlog}

namespace ApplicationBlockConfig

def IsInt32 (c : ApplicationBlockConfig) : Prop :=
  RDPBlocker.IsInt32 c.mBlockTime ∧ RDPBlocker.IsInt32 c.mRandomDelayMin ∧
    RDPBlocker.IsInt32 c.mRandomDelayMax

instance (c : ApplicationBlockConfig) : Decidable c.IsInt32 := inferInstanceAs (Decidable (_ ∧ _))

theorem isInt32_default : ({} : ApplicationBlockConfig).IsInt32 := by decide

end ApplicationBlockConfig

namespace YamlCpp
variable (Y : YamlCpp)

theorem intAt_isInt32 {node : Y.Node} {key : String} {value : ℤ}
    (h : Y.intAt node key = some value) : IsInt32 value := by
  obtain ⟨child, -, hchild⟩ := Option.bind_eq_some_iff.mp h
  exact Y.asInt_isInt32 child value hchild

theorem keeps_loadBlock (root : Y.Node) :
    (Y.loadBlock root : Loader B S Unit).Keeps fun g => g.mBlock.IsInt32 := by
  refine .ofOption fun node _ => .ofOption fun a ha => .bind (.modify ?_) fun _ =>
    .ofOption fun b hb => .bind (.modify ?_) fun _ => .ofOption fun c hc => .modify ?_
  · exact fun g hg => ⟨Y.intAt_isInt32 ha, hg.2⟩
  · exact fun g hg => ⟨hg.1, Y.intAt_isInt32 hb, hg.2.2⟩
  · exact fun g hg => ⟨hg.1, hg.2.1, Y.intAt_isInt32 hc⟩

-- The other sections of the file do not touch the first one.
section frame
variable {P : ApplicationBlockConfig → Prop}

theorem keeps_modify {f : LoadedConfig B S → LoadedConfig B S}
    (hf : ∀ g, (f g).mBlock = g.mBlock) :
    Raising.Keeps (modify f : Loader B S Unit) fun g => P g.mBlock :=
  .modify fun g hg => by rwa [hf g]

theorem keeps_loadFailBan (root : Y.Node) :
    (Y.loadFailBan root : Loader B S Unit).Keeps fun g => P g.mBlock :=
  .ofOption fun _ _ => .ofOption fun _ _ => .bind (keeps_modify fun _ => rfl) fun _ =>
    .ofOption fun _ _ => .bind (keeps_modify fun _ => rfl) fun _ =>
      .ofOption fun _ _ => keeps_modify fun _ => rfl

theorem keeps_loadUserBind (node : Y.Node) :
    (Y.loadUserBind node : Loader B S Unit).Keeps fun g => P g.mBlock :=
  .ofOption fun _ _ => .ofOption fun pairs _ => .forM pairs fun _ =>
    .ofOption fun _ _ => .ofOption fun _ _ => keeps_modify fun _ => rfl

theorem keeps_loadNames (node : Y.Node) (key : String)
    {insert : String → LoadedConfig B S → LoadedConfig B S}
    (hinsert : ∀ name g, (insert name g).mBlock = g.mBlock) :
    (Y.loadNames node key insert).Keeps fun g => P g.mBlock :=
  .ofOption fun _ _ => .ofOption fun _ _ => .forM _ fun _ =>
    .ofOption fun name _ => keeps_modify (hinsert name)

theorem keeps_loadWorkstationName (root : Y.Node) :
    (Y.loadWorkstationName root : Loader B S Unit).Keeps fun g => P g.mBlock := by
  refine .ofOption fun node _ => .ofOption fun _ _ => .bind (keeps_modify fun _ => rfl) fun _ =>
    .ofOption fun _ _ => .bind (keeps_modify fun _ => rfl) fun _ =>
      .ofOption fun _ _ => .bind (keeps_modify fun _ => rfl) fun _ => ?_
  exact .bind (Y.keeps_loadUserBind node) fun _ =>
    .bind (Y.keeps_loadNames node _ fun _ _ => rfl) fun _ => Y.keeps_loadNames node _ fun _ _ => rfl

theorem keeps_loadLog (root : Y.Node) :
    (Y.loadLog root : Loader B S Unit).Keeps fun g => P g.mBlock :=
  .ofOption fun _ _ => .ofOption fun _ _ => keeps_modify fun _ => rfl

theorem keeps_newRegex (expression : String) :
    (newRegex expression : Loader B S (Regex B)).Keeps fun g => P g.mBlock := by
  unfold newRegex
  split
  · exact fun _ hg => hg
  · exact fun _ hg => hg

theorem keeps_loadIpAddress (root : Y.Node) :
    (Y.loadIpAddress root : Loader B S Unit).Keeps fun g => P g.mBlock :=
  .ofOption fun _ _ => .ofOption fun _ _ => .ofOption fun _ _ => .forM _ fun _ =>
    .ofOption fun _ _ => .bind (keeps_newRegex _) fun _ => keeps_modify fun _ => rfl

end frame

theorem keeps_loadRoot (fileText : String) :
    (Y.loadRoot fileText : Loader B S Unit).Keeps fun g => g.mBlock.IsInt32 :=
  .ofOption fun root _ => .bind (Y.keeps_loadBlock root) fun _ =>
    .bind (Y.keeps_loadFailBan root) fun _ => .bind (Y.keeps_loadWorkstationName root) fun _ =>
      .bind (Y.keeps_loadLog root) fun _ => Y.keeps_loadIpAddress root

/-- Whatever the file contains, the three values are 32-bit integers afterwards. -/
theorem loadConfigFile_isInt32 (file : Option String) {g : LoadedConfig B S}
    (hg : g.mBlock.IsInt32) : (Y.loadConfigFile file g).2.mBlock.IsInt32 := by
  cases file with
  | none => exact hg
  | some fileText =>
    have hkept := Y.keeps_loadRoot fileText g hg
    unfold loadConfigFile
    dsimp only
    rcases hx : (Y.loadRoot fileText : Loader B S Unit).execute g with ⟨r, g'⟩
    rw [hx] at hkept
    rcases r with (_ | _) | ⟨⟩
    · exact hkept
    · exact hkept
    · exact hkept

end YamlCpp
namespace ApplicationBlockConfig
variable {c : ApplicationBlockConfig}

/-- The block time is the sum that the configuration file promises, and the addition does not
wrap. -/
structure IsSum (c : ApplicationBlockConfig) (distrib : ℤ) : Prop where
  lower : c.mBlockTime + c.mRandomDelayMin ≤ c.blockTime distrib
  upper : c.blockTime distrib ≤ c.mBlockTime + c.mRandomDelayMax
  noWrap : c.blockTime distrib =
    c.mBlockTime + randomInt c.mRandomDelayMin c.mRandomDelayMax distrib

theorem blockTime_of_eq (hc : c.IsInt32) (h : c.mRandomDelayMin = c.mRandomDelayMax)
    (distrib : ℤ) : c.blockTime distrib = c.mBlockTime := by
  have hdelay : randomInt c.mRandomDelayMin c.mRandomDelayMax distrib = 0 :=
    if_neg (by omega)
  simp only [blockTime, hdelay, Int.add_zero]
  exact toInt32_eq_self.mpr hc.1

theorem blockTime_of_lt (h : c.mRandomDelayMin < c.mRandomDelayMax) (distrib : ℤ) :
    c.blockTime distrib = toInt32 (c.mBlockTime + distrib) := by
  have hdelay : randomInt c.mRandomDelayMin c.mRandomDelayMax distrib = distrib := if_pos h
  simp only [blockTime, hdelay]

theorem IsSum.isInt32 {distrib : ℤ} (hsum : c.IsSum distrib) (h : c.mRandomDelayMin < c.mRandomDelayMax) :
    RDPBlocker.IsInt32 (c.mBlockTime + distrib) := by
  have hexact := hsum.noWrap
  rw [blockTime_of_lt h, randomInt, if_pos h] at hexact
  exact toInt32_eq_self.mp hexact

end ApplicationBlockConfig

/-- Whatever is drawn, the block time is the documented sum if and only if a delay that is not
random is zero, and the ends of a random one do not leave the 32-bit range. -/
theorem block_time_is_sum_iff {c : ApplicationBlockConfig} (hc : c.IsInt32)
    (hle : c.mRandomDelayMin ≤ c.mRandomDelayMax) :
    (∀ distrib, c.mRandomDelayMin ≤ distrib → distrib ≤ c.mRandomDelayMax → c.IsSum distrib) ↔
      (c.mRandomDelayMin = c.mRandomDelayMax → c.mRandomDelayMin = 0) ∧
        (c.mRandomDelayMin < c.mRandomDelayMax →
          IsInt32 (c.mBlockTime + c.mRandomDelayMin) ∧
            IsInt32 (c.mBlockTime + c.mRandomDelayMax)) := by
  constructor
  · intro h
    have hmin := h c.mRandomDelayMin le_rfl hle
    have hmax := h c.mRandomDelayMax hle le_rfl
    refine ⟨fun heq => ?_, fun hlt => ⟨hmin.isInt32 hlt, hmax.isInt32 hlt⟩⟩
    have hlower := hmin.lower
    have hupper := hmin.upper
    rw [ApplicationBlockConfig.blockTime_of_eq hc heq] at hlower hupper
    omega
  · rintro ⟨hzero, hrange⟩ distrib hmin hmax
    rcases hle.eq_or_lt with heq | hlt
    · have htime := ApplicationBlockConfig.blockTime_of_eq hc heq distrib
      have hmin_zero := hzero heq
      have hdelay : randomInt c.mRandomDelayMin c.mRandomDelayMax distrib = 0 :=
        if_neg (by omega)
      refine ⟨?_, ?_, ?_⟩
      · omega
      · omega
      · rw [htime, hdelay, Int.add_zero]
    · obtain ⟨hlow, hhigh⟩ := hrange hlt
      have hsum : IsInt32 (c.mBlockTime + distrib) := by
        unfold IsInt32 at hlow hhigh ⊢
        omega
      have htime : c.blockTime distrib = c.mBlockTime + distrib := by
        rw [ApplicationBlockConfig.blockTime_of_lt hlt, toInt32_eq_self.mpr hsum]
      refine ⟨?_, ?_, ?_⟩
      · omega
      · omega
      · rw [htime, randomInt, if_pos hlt]

theorem block_time_is_sum_iff_default :
    (∀ distrib : ℤ, 0 ≤ distrib → distrib ≤ 30 →
      ({} : ApplicationBlockConfig).IsSum distrib) ↔
      ((0 : ℤ) = 30 → (0 : ℤ) = 0) ∧
        ((0 : ℤ) < 30 → IsInt32 (600 + 0) ∧ IsInt32 (600 + 30)) :=
  block_time_is_sum_iff ApplicationBlockConfig.isInt32_default (by decide)

/-- A delay of five seconds that is not random is left out, and a block time near the end of the
32-bit range wraps. -/
theorem fixed_delay_is_left_out :
    ((⟨600, 5, 5⟩ : ApplicationBlockConfig).IsInt32 ∧
        ¬ (⟨600, 5, 5⟩ : ApplicationBlockConfig).IsSum 5) ∧
      (⟨2 ^ 31 - 1, 0, 30⟩ : ApplicationBlockConfig).IsInt32 ∧
        ¬ (⟨2 ^ 31 - 1, 0, 30⟩ : ApplicationBlockConfig).IsSum 30 := by
  refine ⟨⟨by decide, fun h => ?_⟩, by decide, fun h => ?_⟩
  · exact absurd h.lower (by decide)
  · exact absurd h.lower (by decide)

end RDPBlocker
