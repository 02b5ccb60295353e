/-
  Pricing decisions against the policy.

  The calculation compares the change of price with the automatic limit before it is rounded to
  four decimals, the approval policy compares the rounded change with the same limit and counts the
  limit itself as significant.  The two disagree between the limit and the point from which the
  change is rounded to it, and nowhere else (`agree_iff_not_disputed`).

  The main result says so of the inputs.  The change is the one that the caller reads off them: from
  the current price to a multiple of the increment that covers costs and minimum price, in exact
  arithmetic.  The crux is that the calculation has the change in 28 digits only, so the exact one
  must first be known to be on the same side of both points; `Domains/PriceChanges.lean` says when.
-/
import CommerceOperations.Application.Pricing
import CommerceOperations.Domains.PriceChanges

namespace CommerceOperations

open Relational Decimals Pricing

namespace PricingService

variable [Digests]

/-! ## What a decision is made of -/

/-- A decision is the row of a calculation; it is allowed at once when no rule of the policy wants
    an approval of the change that the row reports. -/
theorem createDecision_returns {engine : ApprovalEngine} {command : CreatePricingDecision}
    {decision : PricingDecision} {D D' : Db}
    (hrun : (createDecision engine command).runs D (.ok (decision, D'))) :
    ∃ inventory ∈ (Db.inventoryItems D).rows, inventory.id = command.inventoryItemId ∧
      ∃ result, calculatePrice defaultContext
          (inputs command (command.landedCost.getD inventory.costBasis)) command.rules =
            .ok result ∧
        (decision.policyResult = "allowed" ↔
          engine.policy.evaluate
            { actionType := .priceChange
              amount := none
              priceChangePercent := result.priceChangePercentage
              isFirstPublication := false
              riskLevel := "normal" } = none) := by
  unfold createDecision at hrun
  obtain ⟨found, D₁, hselect, hrun⟩ := Prog.runs_bind_ok.mp hrun
  obtain ⟨hfound, rfl⟩ := Prog.runs_selectForUpdate.mp hselect
  obtain ⟨inventory, D₁, hthrow, hrun⟩ := Prog.runs_bind_ok.mp hrun
  obtain ⟨hinventory, rfl⟩ := Tx.runs_orThrow.mp hthrow
  dsimp only at hrun
  obtain ⟨result, D₁, hcalculate, hrun⟩ := Prog.runs_bind_ok.mp hrun
  obtain ⟨hresult, rfl⟩ := Prog.runs_ofExcept.mp hcalculate
  obtain ⟨id, D₁, -, hrun⟩ := Prog.runs_bind_ok.mp hrun
  obtain ⟨row, D₂, -, hrun⟩ := Prog.runs_bind_ok.mp hrun
  obtain ⟨approval, D₃, happroval, hrun⟩ := Prog.runs_bind_ok.mp hrun
  obtain ⟨now, D₄, -, hrun⟩ := Prog.runs_bind_ok.mp hrun
  obtain ⟨row', D₅, hflush, hrun⟩ := Prog.runs_bind_ok.mp hrun
  obtain ⟨-, D₆, -, hrun⟩ := Prog.runs_bind_ok.mp hrun
  cases hrun
  rw [hinventory] at hfound
  have hmem := List.mem_of_find?_eq_some hfound.symm
  have hid := List.find?_some hfound.symm
  refine ⟨inventory, hmem, of_decide_eq_true hid, result, hresult, ?_⟩
  -- the row is written last, with the result of the policy
  have hpolicy := Prog.column_of_flush PricingDecision.policyResult (fun _ => rfl) hflush
  rw [hpolicy]
  unfold ApprovalEngine.requestIfRequired at happroval
  split at happroval
  -- no rule asks for an approval
  · rename_i hevaluate
    cases happroval
    exact ⟨fun _ => hevaluate, fun _ => rfl⟩
  · rename_i rule hevaluate
    obtain ⟨created, D₇, -, hdone⟩ := Prog.runs_bind_ok.mp happroval
    cases hdone
    constructor
    · intro h
      have hnames : "approval_required" = "allowed" := h
      exact absurd hnames (by decide)
    · intro h
      rw [h] at hevaluate
      exact nomatch hevaluate

/-! ## The limit of automatic changes -/

/-- The point from which a change is rounded to a four-decimal amount that reaches the limit, half a
    ten-thousandth below the least such amount. -/
def edge (limit : Rat) : Rat := (⌈limit * 10 ^ 4⌉ - 1 / 2) / 10 ^ 4

/-- The change is above the edge, or on it and rounded up to an even amount. -/
def ReachesEdge (limit change : Rat) : Prop :=
  edge limit < change ∨ change = edge limit ∧ ⌈limit * 10 ^ 4⌉ % 2 = 0

instance (limit change : Rat) : Decidable (ReachesEdge limit change) :=
  inferInstanceAs (Decidable (_ ∨ _ ∧ _))

/-- The change lies between the limit and the edge, whichever comes first.  The limit itself counts
    as reached on both sides; the edge does so where the change on it is rounded up. -/
def Disputed (limit change : Rat) : Prop :=
  edge limit < change ∧ change < limit ∨ limit ≤ change ∧ change < edge limit ∨
    change = edge limit ∧ (⌈limit * 10 ^ 4⌉ % 2 = 0 ↔ change < limit)

instance (limit change : Rat) : Decidable (Disputed limit change) :=
  inferInstanceAs (Decidable (_ ∨ _ ∨ _))

omit [Digests] in
/-- The two points are on different sides of a change that is disputed.  By the order of the three
    numbers; on the edge itself the parity decides. -/
theorem disputed_iff {limit change : Rat} :
    Disputed limit change ↔ ¬(limit ≤ change ↔ ReachesEdge limit change) := by
  unfold Disputed ReachesEdge
  rcases lt_trichotomy change (edge limit) with hlt | heq | hgt
  · -- below the edge only the limit can be reached
    have hnot : ¬(edge limit < change ∨ change = edge limit ∧ ⌈limit * 10 ^ 4⌉ % 2 = 0) := by
      rintro (h | ⟨h, -⟩)
      · exact hlt.not_gt h
      · exact hlt.ne h
    rw [iff_false_right hnot, not_not]
    constructor
    · rintro (⟨h, -⟩ | ⟨h, -⟩ | ⟨h, -⟩)
      · exact absurd h hlt.not_gt
      · exact h
      · exact absurd h hlt.ne
    · exact fun h => .inr (.inl ⟨h, hlt⟩)
  · -- on the edge the parity decides
    have hreaches : edge limit < change ∨ change = edge limit ∧ ⌈limit * 10 ^ 4⌉ % 2 = 0 ↔
        ⌈limit * 10 ^ 4⌉ % 2 = 0 := by
      constructor
      · rintro (h | ⟨-, h⟩)
        · exact absurd h heq.not_gt
        · exact h
      · exact fun h => .inr ⟨heq, h⟩
    rw [hreaches, ← not_lt, not_iff, not_not]
    constructor
    · rintro (⟨h, -⟩ | ⟨-, h⟩ | ⟨-, h⟩)
      · exact absurd h heq.not_gt
      · exact absurd h heq.not_lt
      · exact h.symm
    · exact fun h => .inr (.inr ⟨heq, h.symm⟩)
  · -- above the edge only the limit can be missed
    rw [iff_true_right (Or.inl hgt), not_le]
    constructor
    · rintro (⟨-, h⟩ | ⟨-, h⟩ | ⟨h, -⟩)
      · exact h
      · exact absurd h hgt.not_gt
      · exact absurd h hgt.ne'
    · exact fun h => .inl ⟨hgt, h⟩

omit [Digests] in
/-- A change on the same side of both points is disputed as the other is. -/
theorem disputed_congr {limit x y : Rat}
    (hlimit : (limit < x ↔ limit < y) ∧ (x = limit ↔ y = limit))
    (hedge : (edge limit < x ↔ edge limit < y) ∧ (x = edge limit ↔ y = edge limit)) :
    Disputed limit x ↔ Disputed limit y := by
  have hle : limit ≤ x ↔ limit ≤ y := by
    rw [le_iff_lt_or_eq, le_iff_lt_or_eq, hlimit.1, eq_comm, hlimit.2, eq_comm]
  rw [disputed_iff, disputed_iff, hle]
  unfold ReachesEdge
  rw [hedge.1, hedge.2]

omit [Digests] in
/-- A positive limit has a positive edge. -/
theorem edge_pos {limit : Rat} (h : 0 < limit) : 0 < edge limit := by
  have hceil : (1 : Rat) ≤ ⌈limit * 10 ^ 4⌉ := by
    exact_mod_cast Int.ceil_pos.mpr (show (0 : Rat) < limit * 10 ^ 4 by positivity)
  unfold edge
  generalize (⌈limit * 10 ^ 4⌉ : Rat) = ceiling at hceil ⊢
  have hhalf : 0 < ceiling - 1 / 2 := by linarith
  positivity

omit [Digests] in
/-- The edge is in range with the limit. -/
theorem sized_edge {limit : Rat} (h : InRange limit) (hpos : 0 < limit) :
    Sized (-span) (span + 1) (edge limit) := by
  have hspan : span = 300000 := rfl
  have hceil : (1 : Rat) ≤ ⌈limit * 10 ^ 4⌉ := by
    exact_mod_cast Int.ceil_pos.mpr (show (0 : Rat) < limit * 10 ^ 4 by positivity)
  have hlt := Int.ceil_lt_add_one (limit * 10 ^ 4)
  have hone : (1 : Rat) ≤ 10 ^ span := one_le_zpow₀ (by norm_num) (by omega)
  have hten : (10 : Rat) ^ (span + 1) = 10 ^ span * 10 := zpow_add_one₀ (by norm_num) _
  have hsmall : (10 : Rat) ^ (-span) ≤ 10 ^ (-5 : Int) :=
    zpow_le_zpow_right₀ (by norm_num) (by omega)
  have hle := h.le
  right
  unfold edge
  generalize (⌈limit * 10 ^ 4⌉ : Rat) = ceiling at hceil hlt ⊢
  constructor
  · rw [le_div_iff₀ (by norm_num)]
    rw [show (10 : Rat) ^ (-5 : Int) = 1 / 100000 by norm_num] at hsmall
    linarith
  · rw [div_le_iff₀ (by norm_num)]
    linarith

omit [Digests] in
/-- The rounded change reaches the limit exactly if the change reaches the edge: it is compared with
    the four-decimal amounts, of which the least that reaches the limit is rounded to from half a
    ten-thousandth below it on. -/
theorem le_toPlaces_iff_reachesEdge {limit change : Rat} :
    limit ≤ toPlaces 4 change ↔ ReachesEdge limit change := by
  have hceil : limit ≤ toPlaces 4 change ↔
      ⌈limit * 10 ^ 4⌉ ≤ roundHalfEven (change * 10 ^ 4) := by
    unfold toPlaces
    rw [le_div_iff₀ (by norm_num), Int.ceil_le]
  rw [hceil, le_roundHalfEven]
  unfold ReachesEdge edge
  rw [div_lt_iff₀ (by norm_num), eq_div_iff (by norm_num)]
  constructor
  · rintro (h | ⟨h, heven⟩)
    · left
      linarith
    · right
      exact ⟨by linarith, heven⟩
  · rintro (h | ⟨h, heven⟩)
    · left
      linarith
    · right
      exact ⟨by linarith, heven⟩

omit [Digests] in
/-- Of a price change only the rule for significant ones asks anything. -/
theorem evaluate_priceChange {settings : ApprovalSettings} {change : Option Rat} :
    (ApprovalPolicy.fromSettings settings).evaluate
        { actionType := .priceChange
          amount := none
          priceChangePercent := change
          isFirstPublication := false
          riskLevel := "normal" } = none ↔
      ∀ x ∈ change, |x| < settings.significantPriceChangePercent := by
  unfold ApprovalPolicy.evaluate ApprovalPolicy.fromSettings
  rw [List.find?_eq_none]
  constructor
  · intro h x hx
    have hrule := h (.significantPriceChange settings.significantPriceChangePercent) (by simp)
    rw [Option.mem_def] at hx
    subst hx
    simpa [ApprovalRule.requiresApproval] using hrule
  · intro h rule hrule
    simp only [List.mem_cons, List.not_mem_nil, or_false] at hrule
    rcases hrule with rfl | rfl | rfl | rfl
    · simp [ApprovalRule.requiresApproval]
    · simp [ApprovalRule.requiresApproval]
    · cases change with
      | none => simp [ApprovalRule.requiresApproval]
      | some x => simpa [ApprovalRule.requiresApproval] using h x rfl
    · simp [ApprovalRule.requiresApproval]

omit [Digests] in
/-- What holds of all values there are, where there is one. -/
theorem forall_mem_some {x : Rat} {P : Rat → Prop} : (∀ y ∈ some x, P y) ↔ P x := by
  constructor
  · exact fun h => h x rfl
  · rintro h _ ⟨⟩
    exact h

omit [Digests] in
/-- The two comparisons, of the rounded change and of the one before rounding. -/
theorem agree_iff_not_disputed {limit : Rat} {change : Option Rat} :
    ((∀ x ∈ change.map (toPlaces 4), |x| < limit) ↔
        (change.all fun change => |change| < limit) = true) ↔
      ∀ x ∈ change, ¬ Disputed limit |x| := by
  cases change with
  | none =>
    constructor
    · rintro - _ ⟨⟩
    · intro _
      exact ⟨fun _ => rfl, by rintro - _ ⟨⟩⟩
  | some change =>
    rw [Option.map_some, forall_mem_some, forall_mem_some, abs_toPlaces, ← not_le,
      le_toPlaces_iff_reachesEdge, Option.all_some, decide_eq_true_eq, ← not_le]
    rw [not_iff_not, disputed_iff, not_not]
    exact iff_comm

/-! ## The change that the inputs lead to -/

/-- There is a current price, the amounts and the limit are in range, and whatever multiple of the
    increment the recommended price may be, the change to it is settled at the limit and at the edge
    and has the property. -/
def ForChange (request : PricingInputs) (rules : CommercialPricingRules) (limit : Rat)
    (property : Rat → Prop) : Prop :=
  ∃ current ∈ request.currentSellingPrice, Ordinary request rules ∧ InRange limit ∧
    ∀ n, Candidate request rules n →
      Settled limit current (n * rules.roundingIncrement) ∧
        Settled (edge limit) current (n * rules.roundingIncrement) ∧
        property (changeBy current (n * rules.roundingIncrement))

omit [Digests] in
/-- What is so of the change that the inputs lead to is so of the calculated one, if it only
    depends on whether the change is disputed. -/
theorem ForChange.calculated {request : PricingInputs} {rules : CommercialPricingRules}
    {limit : Rat} {property : Rat → Prop} (h : ForChange request rules limit property)
    (hvalid : Valid request rules) (hlimitPos : 0 < limit)
    (hproperty : ∀ {x y}, (Disputed limit x ↔ Disputed limit y) → (property x ↔ property y)) :
    ∃ change ∈ changeTo defaultContext request (salePrice defaultContext request rules),
      property |change| := by
  obtain ⟨current, hcurrent, ho, hlimit, hall⟩ := h
  have hspan : span = 300000 := rfl
  have hpos := hvalid.currentSellingPrice current hcurrent
  have hrange := ho.currentSellingPrice current hcurrent
  have hunits : (0 : Rat) ≤ saleUnits request rules := by
    exact_mod_cast saleUnits_nonneg hvalid ho
  have hexact : 0 ≤ (saleUnits request rules : Rat) * rules.roundingIncrement :=
    mul_nonneg hunits hvalid.roundingIncrement.le
  obtain ⟨hsettled, hsettledEdge, hchange⟩ := hall _ (candidate_saleUnits hvalid ho)
  have hnear := near_salePrice hvalid ho
  refine ⟨_, Option.mem_map_of_mem _ hcurrent, (hproperty ?_).mpr hchange⟩
  exact disputed_congr
    (hsettled.compare hrange hpos (hlimit.mono le_rfl (by omega)) hlimitPos hexact hnear rfl)
    (hsettledEdge.compare hrange hpos (sized_edge hlimit hlimitPos) (edge_pos hlimitPos) hexact
      hnear rfl)

/-- A database with one item in stock. -/
def boxDb : Db where
  table
    | .inventoryItems => .singleton
        { id := Uuid.ofNat 1, version := 1, productId := Uuid.ofNat 2, sku := "BOX"
          storageLocation := "main", quantityOnHand := 3, reservedQuantity := 0, costBasis := 6
          currency := "GBP", lowStockThreshold := 0 }
    | _ => ∅

/-- The default settings: from ten percent on a change is significant. -/
def tenPercent : ApprovalSettings := ⟨10, 100⟩

/-- An engine with this policy; what the handler of an approval does is of no interest here. -/
def pricingEngine : ApprovalEngine := ⟨.fromSettings tenPercent, 72, fun _ => none⟩

/-- A price of at least `minimum` for something that sells at 100000 now. -/
def reprice (minimum : Rat) : CreatePricingDecision where
  inventoryItemId := Uuid.ofNat 1
  marketplaceFees := 0
  fulfilmentCosts := 0
  targetMargin := 0
  minimumMargin := 0
  currentSellingPrice := some 100000
  currency := "GBP"
  reason := "repricing"
  requester := "seller"
  landedCost := some 6
  rules := { minimumPrice := minimum }

omit [Digests] in
/-- The amounts of the sample are in range. -/
theorem ordinary_reprice {cents : Int} (hlow : 1 ≤ cents) (hhigh : cents ≤ 10 ^ 20) :
    Ordinary (inputs (reprice (cents / 100)) 6) (reprice (cents / 100)).rules := by
  have hspan : (10 : Rat) ^ (-span) ≤ 10 ^ (0 : Int) :=
    zpow_le_zpow_right₀ (by norm_num) (by decide)
  have hone : (1 : Rat) ≤ cents := by exact_mod_cast hlow
  have hmax : (cents : Rat) ≤ 10 ^ 20 := by exact_mod_cast hhigh
  refine ⟨inRange_of_le ?_ ?_, .inl rfl, .inl rfl, ?_, ?_, inRange_of_le ?_ ?_,
    inRange_of_le ?_ ?_⟩
  · norm_num [inputs]
  · norm_num [inputs]
  · rw [zpow_zero] at hspan
    norm_num [inputs, reprice] at hspan ⊢
    exact hspan
  · rintro current ⟨⟩
    exact inRange_of_le (by norm_num) (by norm_num)
  · norm_num [reprice]
    linarith
  · norm_num [reprice]
    linarith
  · norm_num [reprice]
  · norm_num [reprice]

omit [Digests] in
/-- A minimum price of whole cents leaves one candidate, itself. -/
theorem candidate_reprice {cents n : Int} (hhigh : cents ≤ 10 ^ 20) (hlow : 600 ≤ cents)
    (hunits : Written cents) (hprice : Written (cents * (1 / 100)))
    (hn : Candidate (inputs (reprice (cents / 100)) 6) (reprice (cents / 100)).rules n) :
    n = cents := by
  have hsix : (600 : Rat) ≤ cents := by exact_mod_cast hlow
  have hmax : (cents : Rat) ≤ 10 ^ 20 := by exact_mod_cast hhigh
  apply le_antisymm
  · refine hn.exact cents ⟨?_, ?_, ?_, ?_, hunits, hprice⟩ ⟨?_, ?_⟩
    · exact (by decide +kernel : Written (6 + 0))
    · exact (by decide +kernel : Written (6 + 0 + 0))
    · exact (by decide +kernel : Written (1 - 0))
    · exact (by decide +kernel : Written (1 - 0))
    · norm_num [inputs, reprice, cost]
      linarith
    · norm_num [reprice]
      linarith
  · have hminimum := hn.covers.minimum
    norm_num [reprice, slack] at hminimum
    have hlt : (cents : Rat) - 1 < n := by linarith
    have : cents - 1 < n := by exact_mod_cast hlt
    omega

omit [Digests] in
/-- What is settled for the minimum price is settled of the change that the inputs lead to. -/
theorem forChange_reprice {cents : Int} {property : Rat → Prop} (hhigh : cents ≤ 10 ^ 20)
    (hlow : 600 ≤ cents) (hunits : Written cents) (hprice : Written (cents * (1 / 100)))
    (hlimit : Settled 10 100000 (cents * (1 / 100)))
    (hedge : Settled (edge 10) 100000 (cents * (1 / 100)))
    (hproperty : property (changeBy 100000 (cents * (1 / 100)))) :
    ForChange (inputs (reprice (cents / 100)) 6) (reprice (cents / 100)).rules 10 property := by
  refine ⟨100000, rfl, ordinary_reprice (by omega) hhigh,
    inRange_of_le (by norm_num) (by norm_num), ?_⟩
  intro n hn
  cases candidate_reprice hhigh hlow hunits hprice hn
  exact ⟨hlimit, hedge, hproperty⟩

omit [Digests] in
/-- The edge of ten percent, as a number. -/
theorem edge_ten : edge 10 = 999995 / 100000 := by decide +kernel

end PricingService

end CommerceOperations
