import Mathlib.Algebra.BigOperators.Group.Finset.Basic
import Mathlib.Algebra.Group.Action.Defs
import Vls.Node.Steps

/-!
# The ledger follows the commitments

Whatever a node serves, its ledger holds for each payment and channel either nothing or the amounts
of the channel's current commitments.  A payment is tracked when the ledger misses nothing; then the
totals of the ledger are the sums over the channels.
-/

namespace ValidatingSigner

open Base NodeState

/-- The ledger holds nothing but amounts of the current commitments, which are within limits. -/
structure Node.Follows (N : Node) (v : SimpleValidator) (m : NodeMemory N.size) : Prop where
  within : ∀ i,
    (m.estates i).commitments.Within v.policy.maxHtlcValueSat (N.channels i).setup
  ids : ∀ hash k, k ∈ (m.node.payment hash).incoming ∨ k ∈ (m.node.payment hash).outgoing →
    ∃ i, (N.channels i).id0 = k
  incoming : ∀ hash i, (m.node.payment hash).incoming.lookup (N.channels i).id0 = none ∨
    (m.node.payment hash).incoming.lookup (N.channels i).id0 =
      some ((m.estates i).commitments.incoming hash)
  outgoing : ∀ hash i, (m.node.payment hash).outgoing.lookup (N.channels i).id0 = none ∨
    (m.node.payment hash).outgoing.lookup (N.channels i).id0 =
      some ((m.estates i).commitments.outgoing hash)

/-- The ledger holds all amounts of the current commitments for a payment. -/
def Node.Tracked (N : Node) (m : NodeMemory N.size) (hash : PaymentHash) : Prop :=
  ∀ i, (m.node.payment hash).incoming.amount (N.channels i).id0 =
      (m.estates i).commitments.incoming hash ∧
    (m.node.payment hash).outgoing.amount (N.channels i).id0 =
      (m.estates i).commitments.outgoing hash

namespace Node

variable {N : Node} {v : SimpleValidator} {m m' : NodeMemory N.size} {event : NodeEvent N.size}

/-! ## Steps -/

/-- The commitments stay, and so do the amounts of each payment unless the payment is forgotten. -/
structure Still (m m' : NodeMemory N.size) : Prop where
  commitments : ∀ i, (m'.estates i).commitments = (m.estates i).commitments
  amounts : ∀ hash, ((m'.node.payment hash).incoming = (m.node.payment hash).incoming ∧
    (m'.node.payment hash).outgoing = (m.node.payment hash).outgoing) ∨
    m'.node.payment hash = .new

/-- A served event is a commitment update, or moves no amounts; only a heartbeat forgets a payment,
and then one that is not approved. -/
theorem Changed.still_or_updated (h : N.Changed v m event m') :
    (Still m m' ∧ ∀ hash, hash ∈ m'.node.invoices ∨ ¬ event.Prunes →
      (m'.node.payment hash).incoming = (m.node.payment hash).incoming ∧
        (m'.node.payment hash).outgoing = (m.node.payment hash).outgoing) ∨
    ∃ i s newHolderTx newCounterpartyTx update, m' = m.write i s ∧
      (N.channels i).Updated v (N.session m i) s newHolderTx newCounterpartyTx update := by
  have hsame {m' : NodeMemory N.size}
      (hcommitments : ∀ i, (m'.estates i).commitments = (m.estates i).commitments)
      (hamounts : ∀ hash, (m'.node.payment hash).incoming = (m.node.payment hash).incoming ∧
        (m'.node.payment hash).outgoing = (m.node.payment hash).outgoing) :
      Still m m' ∧ ∀ hash, hash ∈ m'.node.invoices ∨ ¬ event.Prunes →
        (m'.node.payment hash).incoming = (m.node.payment hash).incoming ∧
          (m'.node.payment hash).outgoing = (m.node.payment hash).outgoing :=
    ⟨⟨hcommitments, fun hash => .inl (hamounts hash)⟩, fun hash _ => hamounts hash⟩
  cases h with
  | kept hledger hcommitments _ =>
    refine .inl (hsame hcommitments fun hash => ?_)
    rw [payment, hledger.payments]
    exact ⟨rfl, rfl⟩
  | updated h => exact .inr ⟨_, _, _, _, _, rfl, h⟩
  | fulfilled h =>
    refine .inl (hsame (fun _ => rfl) fun hash => ?_)
    refine htlcsFulfilled_induction (P := fun s =>
      (s.payment hash).incoming = (m.node.payment hash).incoming ∧
        (s.payment hash).outgoing = (m.node.payment hash).outgoing)
      (fun s s' preimage _ hs hful => ?_) ⟨rfl, rfl⟩ h
    obtain ⟨hin, hout⟩ := hful.amounts_eq hash
    rw [hin, hout]
    exact hs
  | approved _ h =>
    refine .inl (hsame (fun _ => rfl) fun hash => ?_)
    rw [h.payment_eq]
    exact ⟨rfl, rfl⟩
  | issued _ hpayments _ =>
    refine .inl (hsame (fun _ => rfl) fun hash => ?_)
    simp only [payment, hpayments, and_self]
  | pruned h =>
    refine .inl ⟨⟨fun _ => rfl, fun hash => ?_⟩, fun hash hmem => ?_⟩
    · rcases h.payment_eq hash with h | h
      · left
        rw [h]
        exact ⟨rfl, rfl⟩
      · exact .inr h
    · rcases hmem with hmem | hmem
      · simp only [payment, h.kept hash hmem, and_self]
      · exact absurd trivial hmem

theorem estates_write (m : NodeMemory N.size) (i j : Fin N.size) (s : Session) :
    (m.write i s).estates j = if j = i then s.estate else m.estates j :=
  Function.update_apply m.estates i s.estate j

theorem id0_eq_iff (N : Node) {i j : Fin N.size} :
    (N.channels j).id0 = (N.channels i).id0 ↔ j = i :=
  ⟨fun h => N.ids_injective h, fun h => by rw [h]⟩

theorem Follows.initial (N : Node) (v : SimpleValidator) {s : NodeState}
    (hpayments : s.payments = ∅) (values : Fin N.size → Nat) :
    N.Follows v (N.initial s values) := by
  have hnew (hash : PaymentHash) : (N.initial s values).node.payment hash = .new := by
    simp only [payment, Node.initial, hpayments]
    rfl
  refine ⟨fun i => Commitments.within_none _ _, fun hash k hk => ?_, fun hash i => .inl ?_,
    fun hash i => .inl ?_⟩
  · rw [hnew] at hk
    exact absurd hk (by simp [RoutedPayment.new])
  · rw [hnew]
    rfl
  · rw [hnew]
    rfl

theorem Follows.of_still (h : N.Follows v m) (hstill : Still m m') : N.Follows v m' := by
  refine ⟨fun i => hstill.commitments i ▸ h.within i, fun hash k hk => ?_, fun hash i => ?_,
    fun hash i => ?_⟩
  all_goals rcases hstill.amounts hash with ⟨hin, hout⟩ | hnew
  · rw [hin, hout] at hk
    exact h.ids hash k hk
  · rw [hnew] at hk
    exact absurd hk (by simp [RoutedPayment.new])
  · rw [hin, hstill.commitments]
    exact h.incoming hash i
  · rw [hnew]
    exact .inl rfl
  · rw [hout, hstill.commitments]
    exact h.outgoing hash i
  · rw [hnew]
    exact .inl rfl

section Update

variable {i : Fin N.size} {s : Session} {newHolderTx newCounterpartyTx : Option CommitmentInfo2}
  {update : CommitmentUpdate}

theorem Follows.of_updated (h : N.Follows v m)
    (hupdated : (N.channels i).Updated v (N.session m i) s newHolderTx newCounterpartyTx update) :
    N.Follows v (m.write i s) := by
  have hamounts := hupdated.amounts (h.within i)
  refine ⟨fun j => ?_, fun hash k hk => ?_, fun hash j => ?_, fun hash j => ?_⟩
  · rw [estates_write]
    split_ifs with hj
    · exact hj ▸ hupdated.within (h.within i)
    · exact h.within j
  · change k ∈ (s.node.payment hash).incoming ∨ k ∈ (s.node.payment hash).outgoing at hk
    rcases hamounts hash with ⟨-, hin, hout⟩ | ⟨⟨hin, hout⟩, -⟩
    · rw [hin, hout, AList.mem_insert, AList.mem_insert] at hk
      rcases hk with (rfl | hk) | rfl | hk
      · exact ⟨i, rfl⟩
      · exact h.ids hash k (.inl hk)
      · exact ⟨i, rfl⟩
      · exact h.ids hash k (.inr hk)
    · rw [hin, hout] at hk
      exact h.ids hash k hk
  · change (s.node.payment hash).incoming.lookup _ = none ∨
      (s.node.payment hash).incoming.lookup _ = _
    rw [estates_write]
    rcases hamounts hash with ⟨-, hin, -⟩ | ⟨⟨hin, -⟩, ⟨hold, -⟩, hnew, -⟩
    · rw [hin, Table.lookup_insert_eq]
      simp only [N.id0_eq_iff]
      split_ifs
      · exact .inr rfl
      · exact h.incoming hash j
    · have hj := h.incoming hash j
      rw [hin]
      split_ifs with hji
      · subst hji
        rw [hnew]
        rwa [show (m.estates j).commitments.incoming hash = 0 from hold] at hj
      · exact hj
  · change (s.node.payment hash).outgoing.lookup _ = none ∨
      (s.node.payment hash).outgoing.lookup _ = _
    rw [estates_write]
    rcases hamounts hash with ⟨-, -, hout⟩ | ⟨⟨-, hout⟩, ⟨-, hold⟩, -, hnew⟩
    · rw [hout, Table.lookup_insert_eq]
      simp only [N.id0_eq_iff]
      split_ifs
      · exact .inr rfl
      · exact h.outgoing hash j
    · have hj := h.outgoing hash j
      rw [hout]
      split_ifs with hji
      · subst hji
        rw [hnew]
        rwa [show (m.estates j).commitments.outgoing hash = 0 from hold] at hj
      · exact hj

theorem Tracked.of_updated {hash : PaymentHash} (h : N.Tracked m hash)
    (hw : (m.estates i).commitments.Within v.policy.maxHtlcValueSat (N.channels i).setup)
    (hupdated : (N.channels i).Updated v (N.session m i) s newHolderTx newCounterpartyTx update) :
    N.Tracked (m.write i s) hash := by
  intro j
  change (s.node.payment hash).incoming.amount _ = _ ∧ (s.node.payment hash).outgoing.amount _ = _
  rw [estates_write]
  rcases hupdated.amounts hw hash with ⟨-, hin, hout⟩ |
    ⟨⟨hin, hout⟩, ⟨holdIn, holdOut⟩, hnewIn, hnewOut⟩
  · rw [hin, hout, Table.amount_insert, Table.amount_insert]
    simp only [N.id0_eq_iff]
    split_ifs
    · exact ⟨rfl, rfl⟩
    · exact h j
  · have hj := h j
    rw [hin, hout]
    split_ifs with hji
    · subst hji
      rw [hnewIn, hnewOut]
      rwa [show (m.estates j).commitments.incoming hash = 0 from holdIn,
        show (m.estates j).commitments.outgoing hash = 0 from holdOut] at hj
    · exact hj

end Update

theorem Follows.step (h : N.Follows v m) (hchanged : N.Changed v m event m') :
    N.Follows v m' := by
  rcases hchanged.still_or_updated with ⟨hstill, -⟩ | ⟨i, s, _, _, update, rfl, hupdated⟩
  · exact h.of_still hstill
  · exact h.of_updated hupdated

/-- A tracked payment stays tracked unless a heartbeat forgets it. -/
theorem Tracked.step {hash : PaymentHash} (h : N.Tracked m hash) (hfollows : N.Follows v m)
    (hchanged : N.Changed v m event m')
    (hkept : hash ∈ m'.node.invoices ∨ ¬ event.Prunes) : N.Tracked m' hash := by
  rcases hchanged.still_or_updated with ⟨hstill, hamounts⟩ | ⟨i, s, _, _, update, rfl, hupdated⟩
  · intro i
    obtain ⟨hin, hout⟩ := hamounts hash hkept
    rw [hin, hout, hstill.commitments]
    exact h i
  · exact h.of_updated (hfollows.within i) hupdated

/-! ## Totals -/

section Totals

variable {hash : PaymentHash}

theorem total_eq_sum_channels {t : Table ChannelId Nat}
    (hids : ∀ k ∈ t, ∃ i, (N.channels i).id0 = k) :
    t.total = ∑ i, t.amount (N.channels i).id0 := by
  rw [Table.total_eq_sum (s := Finset.univ.image fun i => (N.channels i).id0) fun k hk => ?_,
    Finset.sum_image fun i _ j _ hij => N.ids_injective hij]
  obtain ⟨i, hi⟩ := hids k hk
  exact Finset.mem_image.mpr ⟨i, Finset.mem_univ i, hi⟩

theorem Tracked.totals (h : N.Tracked m hash) (hfollows : N.Follows v m) :
    (m.node.payment hash).incoming.total = ∑ i, (m.estates i).commitments.incoming hash ∧
      (m.node.payment hash).outgoing.total = ∑ i, (m.estates i).commitments.outgoing hash := by
  rw [total_eq_sum_channels (N := N) fun k hk => hfollows.ids hash k (.inl hk),
    total_eq_sum_channels (N := N) fun k hk => hfollows.ids hash k (.inr hk)]
  exact ⟨Finset.sum_congr rfl fun i _ => (h i).1, Finset.sum_congr rfl fun i _ => (h i).2⟩

/-- What the ledger holds as outgoing is limited by the number of channels. -/
theorem Follows.total_outgoing_le (h : N.Follows v m) (hash : PaymentHash) :
    (m.node.payment hash).outgoing.total ≤ N.size * v.policy.maxHtlcValueSat := by
  rw [total_eq_sum_channels (N := N) fun k hk => h.ids hash k (.inr hk)]
  refine (Finset.sum_le_card_nsmul Finset.univ _ v.policy.maxHtlcValueSat fun i _ => ?_).trans_eq
    (by rw [Finset.card_univ, Fintype.card_fin, smul_eq_mul])
  unfold Table.amount
  rcases h.outgoing hash i with hlookup | hlookup
  · rw [hlookup]
    exact Nat.zero_le _
  · rw [hlookup]
    exact (h.within i).outgoing_le hash

end Totals

end Node

end ValidatingSigner
