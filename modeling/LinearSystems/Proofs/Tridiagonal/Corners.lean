import Mathlib
import LinearSystems.Proofs.Systems
import LinearSystems.Proofs.Tridiagonal.Step
import LinearSystems.Tridiagonal.Solution

/-!
# The corners that belong to no unknown

The diagonal below the main one has an entry in the first row, and the one above has an entry in the
last row, that multiply no unknown. What stands there is lost twice. A system is made with zeros in
their place before it is tested that the entries are finite, though after the lengths are compared;
and neither the sweep nor the residual reads them. So two runs that differ in the corners alone are
the same run, faults included.
-/

namespace LinearSystems.Tridiagonal

universe u

namespace Band.SameInside

variable {α : Type u} [Scalar α] {n : Nat} {B B' : Band α n}

theorem residualAt_eq (h : B.SameInside B') (x : Vector α n) (i : Fin n) :
    B.residualAt x i = B'.residualAt x i := by
  by_cases hlast : i.val + 1 < n
  · rcases eq_zero_or_eq_succ i with hi | ⟨p, hp⟩
    · simp only [Band.residualAt, previous?_of_eq_zero hi, h.diag, h.rhs, h.upper i hlast]
    · simp only [Band.residualAt, previous?_of_eq_succ hp, h.diag, h.rhs, h.lower i (by omega),
        h.upper i hlast]
  · have hnone : following? i = none := following?_of_last (Nat.not_lt.mp hlast)
    rcases eq_zero_or_eq_succ i with hi | ⟨p, hp⟩
    · simp only [Band.residualAt, hnone, previous?_of_eq_zero hi, h.diag, h.rhs]
    · simp only [Band.residualAt, hnone, previous?_of_eq_succ hp, h.diag, h.rhs,
        h.lower i (by omega)]

/-- The residual does not read the corners either. -/
theorem residual_eq (h : B.SameInside B') (x : Vector α n) : B.residual x = B'.residual x := by
  simp only [Band.residual, funext (h.residualAt_eq x)]

end Band.SameInside

namespace System

variable {c d e b : Datum} {n k l m : Nat}
  {lower : Vector Float k} {diag : Vector Float n} {upper : Vector Float l} {rhs : Vector Float m}

/-- The corners of a band are zero. -/
structure ZeroCorners (B : Band Float n) : Prop where
  first : ∀ i : Fin n, i.val = 0 → B.lower[i] = 0.0
  last : ∀ i : Fin n, i.val + 1 = n → B.upper[i] = 0.0

/-- Setting the corners to zero makes them zero. -/
theorem zeroCorners_set (hn : 0 < n) (lower diag upper rhs : Vector Float n) :
    ZeroCorners ⟨lower.set 0 0.0 hn, diag, upper.set (n - 1) 0.0 (Nat.sub_one_lt_of_lt hn), rhs⟩ := by
  constructor
  · intro i hi
    rw [getElem_fin, Vector.getElem_set, if_pos hi.symm]
  · intro i hi
    rw [getElem_fin, Vector.getElem_set, if_pos (by omega)]

/-- What is made of four vectors of one length once zeros stand in the corners. -/
def ofBand (hn : 0 < n) (B : Band Float n) (hcorners : ZeroCorners B) : Except Fault System := do
  let ⟨lower_finite⟩ ← checkFinite B.lower "c"
  let ⟨diag_finite⟩ ← checkFinite B.diag "d"
  let ⟨upper_finite⟩ ← checkFinite B.upper "e"
  let ⟨rhs_finite⟩ ← checkFinite B.rhs "b"
  return {
    n
    n_pos := hn
    band := B
    lower_first := hcorners.first ⟨0, hn⟩ rfl
    upper_last := hcorners.last ⟨n - 1, Nat.pred_lt_self hn⟩ (Nat.sub_add_cancel hn)
    lower_finite
    diag_finite
    upper_finite
    rhs_finite }

theorem head?_ofVectors (lower diag upper rhs : Vector Float n) :
    ∀ t ∈ [Tensor.ofVector diag, Tensor.ofVector lower, Tensor.ofVector upper,
      Tensor.ofVector rhs], t.shape.head? = some n := by
  simp [Tensor.ofVector]

/-- Vectors of one length make the system of their band with zeros in the corners. -/
theorem ofDiagonals_eq_ofBand (hn : 0 < n) {lower diag upper rhs : Vector Float n}
    (hc : c.IsVector lower) (hd : d.IsVector diag) (he : e.IsVector upper) (hb : b.IsVector rhs) :
    ofDiagonals c d e b =
      ofBand hn ⟨lower.set 0 0.0 hn, diag, upper.set (n - 1) 0.0 (Nat.sub_one_lt_of_lt hn), rhs⟩
        (zeroCorners_set hn lower diag upper rhs) := by
  have hshape : (Tensor.ofVector diag).shape = [n] := rfl
  rw [ofDiagonals, vectorOf_eq_ok _ hc, vectorOf_eq_ok _ hd, vectorOf_eq_ok _ he,
    vectorOf_eq_ok _ hb]
  simp only [ok_bind]
  rw [Tensor.checkLengths_eq_ok rfl (head?_ofVectors lower diag upper rhs),
    Tensor.checkNonempty_eq_ok _ hshape hn]
  rfl

/-- Vectors of no entries make no system. -/
theorem ofDiagonals_eq_error_of_empty {lower diag upper rhs : Vector Float 0}
    (hc : c.IsVector lower) (hd : d.IsVector diag) (he : e.IsVector upper) (hb : b.IsVector rhs) :
    ofDiagonals c d e b = .error (.mismatch (.empty "d")) := by
  rw [ofDiagonals, vectorOf_eq_ok _ hc, vectorOf_eq_ok _ hd, vectorOf_eq_ok _ he,
    vectorOf_eq_ok _ hb]
  simp only [ok_bind]
  rw [Tensor.checkLengths_eq_ok rfl (head?_ofVectors lower diag upper rhs)]
  rfl

/-- Vectors of different lengths make no system, and the fault shows nothing but the lengths. -/
theorem ofDiagonals_eq_error_of_lengths (h : ¬ (k = n ∧ l = n ∧ m = n))
    (hc : c.IsVector lower) (hd : d.IsVector diag) (he : e.IsVector upper) (hb : b.IsVector rhs) :
    ofDiagonals c d e b =
      .error (.mismatch (.lengths [("d", n), ("c", k), ("e", l), ("b", m)])) := by
  have hshape : ∀ t ∈ [Tensor.ofVector diag, Tensor.ofVector lower, Tensor.ofVector upper,
      Tensor.ofVector rhs], t.shape ≠ [] := by
    simp [Tensor.ofVector]
  have hdiffer : ¬ Tensor.SameLength [Tensor.ofVector diag, Tensor.ofVector lower,
      Tensor.ofVector upper, Tensor.ofVector rhs] := by
    intro hsame
    apply h
    refine ⟨?_, ?_, ?_⟩
    · exact hsame.eq (t := Tensor.ofVector lower) (u := Tensor.ofVector diag) (by simp) (by simp)
        rfl rfl
    · exact hsame.eq (t := Tensor.ofVector upper) (u := Tensor.ofVector diag) (by simp) (by simp)
        rfl rfl
    · exact hsame.eq (t := Tensor.ofVector rhs) (u := Tensor.ofVector diag) (by simp) (by simp)
        rfl rfl
  rw [ofDiagonals, vectorOf_eq_ok _ hc, vectorOf_eq_ok _ hd, vectorOf_eq_ok _ he,
    vectorOf_eq_ok _ hb]
  simp only [ok_bind]
  rw [Tensor.checkLengths_eq rfl hshape, dif_neg hdiffer]
  rfl

/-- The entries of a band are finite, but for its corners. -/
structure FiniteRows (B : Band Float n) : Prop where
  lower : ∀ i : Fin n, i.val ≠ 0 → B.lower[i].isFinite = true
  diag : ∀ i : Fin n, B.diag[i].isFinite = true
  upper : ∀ i : Fin n, i.val ≠ n - 1 → B.upper[i].isFinite = true
  rhs : ∀ i : Fin n, B.rhs[i].isFinite = true

/-- Vectors of one length make a system exactly if their entries are finite, but for the corners. -/
theorem exists_ofDiagonals_eq_ok_iff_finiteRows (hn : 0 < n) {B : Band Float n}
    (hc : c.IsVector B.lower) (hd : d.IsVector B.diag) (he : e.IsVector B.upper)
    (hb : b.IsVector B.rhs) : (∃ S, ofDiagonals c d e b = .ok S) ↔ FiniteRows B := by
  rw [exists_ofDiagonals_eq_ok_iff]
  constructor
  · rintro ⟨k, lower, diag, upper, rhs, -, hc', hd', he', hb', hlower, hdiag, hupper, hrhs⟩
    obtain rfl : k = n := hc'.length_eq hc
    obtain rfl := hc'.eq hc
    obtain rfl := hd'.eq hd
    obtain rfl := he'.eq he
    obtain rfl := hb'.eq hb
    exact ⟨hlower, hdiag, hupper, hrhs⟩
  · intro h
    exact ⟨n, B.lower, B.diag, B.upper, B.rhs, hn, hc, hd, he, hb, h.lower, h.diag, h.upper, h.rhs⟩

/-- The data are read as vectors of `n` entries that agree but for the one at a place. -/
def AgreeBut (n place : Nat) (c c' : Datum) : Prop :=
  ∃ v v' : Vector Float n, c.IsVector v ∧ c'.IsVector v' ∧
    ∀ i : Fin n, i.val ≠ place → v[i] = v'[i]

/-- What stands at a place does not matter once the place is set. -/
theorem set_eq_set {v v' : Vector Float n} {place : Nat} (h : place < n) (x : Float)
    (hagree : ∀ i : Fin n, i.val ≠ place → v[i] = v'[i]) : v.set place x h = v'.set place x h := by
  apply Vector.ext
  intro i hi
  rw [Vector.getElem_set, Vector.getElem_set]
  by_cases hplace : place = i
  · rw [if_pos hplace, if_pos hplace]
  · rw [if_neg hplace, if_neg hplace]
    exact hagree ⟨i, hi⟩ (Ne.symm hplace)

/-- Beside vectors, data that differ in the corners alone make the same system, or the same fault.
    Either way both make what is made of the lengths and of the band with zeros in its corners. -/
theorem ofDiagonals_eq_of_vectors {c' e' : Datum} (hlower : AgreeBut k 0 c c')
    (hupper : AgreeBut l (l - 1) e e') (hd : d.IsVector diag) (hb : b.IsVector rhs) :
    ofDiagonals c d e b = ofDiagonals c' d e' b := by
  obtain ⟨lower, lower', hc, hc', hlower⟩ := hlower
  obtain ⟨upper, upper', he, he', hupper⟩ := hupper
  -- The lengths are the same for both pairs, so both pass or fail the checks before the corners are
  -- set, and with the same fault.
  by_cases hlengths : k = n ∧ l = n ∧ m = n
  · obtain ⟨rfl, rfl, rfl⟩ := hlengths
    by_cases hn : 0 < m
    · rw [ofDiagonals_eq_ofBand hn hc hd he hb, ofDiagonals_eq_ofBand hn hc' hd he' hb]
      simp only [set_eq_set hn 0.0 hlower, set_eq_set (Nat.sub_one_lt_of_lt hn) 0.0 hupper]
    · obtain rfl : m = 0 := Nat.eq_zero_of_not_pos hn
      rw [ofDiagonals_eq_error_of_empty hc hd he hb, ofDiagonals_eq_error_of_empty hc' hd he' hb]
  · rw [ofDiagonals_eq_error_of_lengths hlengths hc hd he hb,
      ofDiagonals_eq_error_of_lengths hlengths hc' hd he' hb]

/-- So they do beside any data: what is no vector is refused as it would be otherwise. -/
theorem ofDiagonals_eq_of_agreeBut {c' e' : Datum} (hlower : AgreeBut k 0 c c')
    (hupper : AgreeBut l (l - 1) e e') (d b : Datum) :
    ofDiagonals c d e b = ofDiagonals c' d e' b := by
  have hvectors {n m : Nat} {diag : Vector Float n} {rhs : Vector Float m} (hd : d.IsVector diag)
      (hb : b.IsVector rhs) := ofDiagonals_eq_of_vectors hlower hupper hd hb
  obtain ⟨lower, lower', hc, hc', -⟩ := hlower
  obtain ⟨upper, upper', he, he', -⟩ := hupper
  cases hd : vectorOf "d" d with
  | error f =>
    rw [ofDiagonals, ofDiagonals, vectorOf_eq_ok _ hc, vectorOf_eq_ok _ hc', hd]
    rfl
  | ok pd =>
    cases hb : vectorOf "b" b with
    | error f =>
      rw [ofDiagonals, ofDiagonals, vectorOf_eq_ok _ hc, vectorOf_eq_ok _ hc', hd,
        vectorOf_eq_ok _ he, vectorOf_eq_ok _ he', hb]
      rfl
    | ok pb => exact hvectors (isVector_of_vectorOf hd) (isVector_of_vectorOf hb)

end System

/-- Nothing that is made with one pair of off-diagonals differs from what is made with the other,
    whatever is given beside them: neither the system, nor the answer with all that it shows, nor
    the fault that comes instead. -/
structure Interchangeable (c e c' e' : Datum) : Prop where
  system : ∀ d b, System.ofDiagonals c d e b = System.ofDiagonals c' d e' b
  answer : ∀ d b backend,
    solve (.lower c) d (some e) b backend = solve (.lower c') d (some e') b backend

theorem interchangeable_of_agreeBut {k l : Nat} {c c' e e' : Datum}
    (hlower : System.AgreeBut k 0 c c') (hupper : System.AgreeBut l (l - 1) e e') :
    Interchangeable c e c' e' where
  system := System.ofDiagonals_eq_of_agreeBut hlower hupper
  answer d b backend := by
    have hsystem := System.ofDiagonals_eq_of_agreeBut hlower hupper
    obtain ⟨_, _, ⟨_, _, he, -⟩, ⟨_, _, he', -⟩, -⟩ := hupper
    unfold solve
    simp only [he.given?_eq, he'.given?_eq]
    cases Datum.given? d with
    | none => rfl
    | some d =>
      cases Datum.given? b with
      | none => rfl
      | some b => simp only [hsystem d b]

/-- What stands in the corners of a tridiagonal system is ignored, whatever it is.
    Two pairs of off-diagonals that are vectors and differ in the corners alone make the same
    systems and have the same answers, unknowns, coefficients of the sweep and residual included,
    or the same faults; those of one row have nothing but corners, so any two do.
    Vectors of one length make a system exactly if their other entries are finite, and it has zeros
    in the corners and beside them the entries that were given.
    And bands of equal rows have the same sweep and the same residuals, in every arithmetic and
    whatever stands in their corners. -/
theorem corners_ignored :
    (∀ (k l : Nat) (c c' e e' : Datum), System.AgreeBut k 0 c c' →
      System.AgreeBut l (l - 1) e e' → Interchangeable c e c' e') ∧
    (∀ (c c' e e' : Datum) (lower lower' upper upper' : Vector Float 1), c.IsVector lower →
      c'.IsVector lower' → e.IsVector upper → e'.IsVector upper' → Interchangeable c e c' e') ∧
    (∀ (n : Nat) (B : Band Float n) (c d e b : Datum), 0 < n → c.IsVector B.lower →
      d.IsVector B.diag → e.IsVector B.upper → b.IsVector B.rhs →
      ((∃ S, System.ofDiagonals c d e b = .ok S) ↔ System.FiniteRows B)) ∧
    (∀ (c d e b : Datum) (S : System), System.ofDiagonals c d e b = .ok S →
      ∃ lower upper : Vector Float S.n, c.IsVector lower ∧ e.IsVector upper ∧
        (∀ i : Fin S.n, S.band.lower[i] = if i.val = 0 then 0.0 else lower[i]) ∧
        ∀ i : Fin S.n, S.band.upper[i] = if i.val + 1 = S.n then 0.0 else upper[i]) ∧
    ∀ (α : Type) [Scalar α] (n : Nat) (B B' : Band α n), B.SameInside B' →
      (∀ t, B.sweep t = B'.sweep t) ∧ ∀ x, B.residual x = B'.residual x := by
  refine ⟨fun k l c c' e e' => interchangeable_of_agreeBut, ?_, ?_, ?_, ?_⟩
  · intro c c' e e' lower lower' upper upper' hc hc' he he'
    -- The only entry of a vector of one row is a corner.
    have hcorner {v v' : Vector Float 1} (i : Fin 1) (hi : i.val ≠ 0) : v[i] = v'[i] :=
      absurd (Fin.val_eq_zero i) hi
    exact interchangeable_of_agreeBut ⟨lower, lower', hc, hc', hcorner⟩
      ⟨upper, upper', he, he', hcorner⟩
  · intro n B c d e b hn hc hd he hb
    exact System.exists_ofDiagonals_eq_ok_iff_finiteRows hn hc hd he hb
  · intro c d e b S h
    obtain ⟨lower, upper, hc, -, he, -, hlower, hupper⟩ := System.ofDiagonals_eq_ok_iff.mp h
    refine ⟨lower, upper, hc, he, ?_, ?_⟩
    · intro i
      rw [hlower, getElem_fin, Vector.getElem_set]
      simp only [eq_comm, getElem_fin]
    · intro i
      have hlast : S.n - 1 = i.val ↔ i.val + 1 = S.n := by omega
      rw [hupper, getElem_fin, Vector.getElem_set]
      simp only [hlast, getElem_fin]
  · intro α _ n B B' h
    exact ⟨h.sweep_eq, h.residual_eq⟩

/-- The corners of the first pair are no numbers, and of the second pair one is infinite; both make a
    system, and it is the same. -/
theorem corners_ignored_two_rows :
    Interchangeable (System.vectorDatum #v[0.0 / 0.0, 1]) (System.vectorDatum #v[1, 0.0 / 0.0])
      (System.vectorDatum #v[5, 1]) (System.vectorDatum #v[1, 1.0 / 0.0]) ∧
    Interchangeable (System.vectorDatum #v[0.0 / 0.0]) (System.vectorDatum #v[1.0 / 0.0])
      (System.vectorDatum #v[2]) (System.vectorDatum #v[3]) ∧
    ∃ S, System.ofDiagonals (System.vectorDatum #v[0.0 / 0.0, 1]) (System.vectorDatum #v[4, 4])
        (System.vectorDatum #v[1, 0.0 / 0.0]) (System.vectorDatum #v[5, 6]) = .ok S ∧
      System.ofDiagonals (System.vectorDatum #v[5, 1]) (System.vectorDatum #v[4, 4])
        (System.vectorDatum #v[1, 1.0 / 0.0]) (System.vectorDatum #v[5, 6]) = .ok S := by
  obtain ⟨hpairs, hsingle, hmade, -, -⟩ := corners_ignored
  have hsame := hpairs 2 2 (System.vectorDatum #v[0.0 / 0.0, 1]) (System.vectorDatum #v[5, 1])
    (System.vectorDatum #v[1, 0.0 / 0.0]) (System.vectorDatum #v[1, 1.0 / 0.0])
    ⟨_, _, System.isVector_vectorDatum _, System.isVector_vectorDatum _, by decide +kernel⟩
    ⟨_, _, System.isVector_vectorDatum _, System.isVector_vectorDatum _, by decide +kernel⟩
  have hfinite : System.FiniteRows
      (⟨#v[0.0 / 0.0, 1], #v[4, 4], #v[1, 0.0 / 0.0], #v[5, 6]⟩ : Band Float 2) :=
    ⟨by decide +kernel, by decide +kernel, by decide +kernel, by decide +kernel⟩
  obtain ⟨S, hS⟩ := (hmade 2 _ _ _ _ _ Nat.two_pos (System.isVector_vectorDatum _)
    (System.isVector_vectorDatum _) (System.isVector_vectorDatum _)
    (System.isVector_vectorDatum _)).mpr hfinite
  refine ⟨hsame, ?_, S, hS, (hsame.system _ _).symm.trans hS⟩
  exact hsingle _ _ _ _ _ _ _ _ (System.isVector_vectorDatum _) (System.isVector_vectorDatum _)
    (System.isVector_vectorDatum _) (System.isVector_vectorDatum _)

end LinearSystems.Tridiagonal
