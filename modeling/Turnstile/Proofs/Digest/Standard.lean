import Mathlib.Analysis.SpecialFunctions.Pow.NthRootLemmas
import Mathlib.NumberTheory.PrimeCounting
import Turnstile.Digest.Sha256

/-! # The digest of the standard

SHA-256 as the standard prints it, apart from the way in which it is computed here. A padded message
is any that fills whole blocks as it should (`Pads`). The words of a block's rounds are numbered, and
each is made of earlier ones (`schedule`). The constants are the fractional parts of roots of primes
(`fraction`), and a block starts with the words that the block before it left (`hash`).

`Sha256.hexDigest` is that digest, and nothing else is (`isDigest_iff`). It takes a message byte by
byte, keeps no more than sixteen words of a schedule (`Holds`), and has its constants in a table. -/

namespace Turnstile.Digest.Standard

open Turnstile.Text

/-- A word of thirty-two bits. -/
abbrev Word := BitVec 32

/-! ### Words, bytes and digits -/

/-- The number that the bytes write, the highest one first. -/
def number (bytes : List UInt8) : Nat := bytes.foldl (fun n b => 256 * n + b.toNat) 0

/-- The words that the bytes write, four bytes each. -/
def wordAt (bytes : List UInt8) (i : Nat) : Word :=
  BitVec.ofNat 32 (number ((bytes.drop (4 * i)).take 4))

/-- The eight digits of a word, the highest one first. -/
def digits (w : Word) : List Char :=
  (List.range 8).map fun i => Nat.digitChar (w.toNat / 16 ^ (7 - i) % 16)

/-! ### The standard -/

/-- Behind the message stand one bit, no more zeros than it takes to fill whole blocks, and the
length of the message in bits. -/
def Pads (message padded : List UInt8) : Prop :=
  ∃ zeros length, padded = message ++ 0x80 :: (List.replicate zeros 0 ++ length) ∧ zeros < 64 ∧
    length.length = 8 ∧ number length = 8 * message.length % 2 ^ 64 ∧ padded.length % 64 = 0

/-- The first thirty-two bits of the fractional part of the root of degree `k`. -/
def fraction (k n : Nat) : Word := BitVec.ofNat 32 (Nat.nthRoot k (n * 2 ^ (32 * k)))

/-- The constant of a round. -/
noncomputable def constant (t : Nat) : Word := fraction 3 (Nat.nth Nat.Prime t)

def choose (x y z : Word) : Word := (x &&& y) ^^^ (~~~x &&& z)

def majority (x y z : Word) : Word := (x &&& y) ^^^ (x &&& z) ^^^ (y &&& z)

def bigSigma0 (x : Word) : Word := x.rotateRight 2 ^^^ x.rotateRight 13 ^^^ x.rotateRight 22

def bigSigma1 (x : Word) : Word := x.rotateRight 6 ^^^ x.rotateRight 11 ^^^ x.rotateRight 25

def smallSigma0 (x : Word) : Word := x.rotateRight 7 ^^^ x.rotateRight 18 ^^^ (x >>> 3)

def smallSigma1 (x : Word) : Word := x.rotateRight 17 ^^^ x.rotateRight 19 ^^^ (x >>> 10)

/-- The words of a block's rounds: those of the block, and then each from four before it. -/
def schedule (block : Nat → Word) (t : Nat) : Word :=
  if _ : t < 16 then block t
  else smallSigma1 (schedule block (t - 2)) + schedule block (t - 7) +
    smallSigma0 (schedule block (t - 15)) + schedule block (t - 16)

/-- The eight words that are worked on. -/
structure Variables where
  a : Word
  b : Word
  c : Word
  d : Word
  e : Word
  f : Word
  g : Word
  h : Word

namespace Variables

/-- The words added pairwise. -/
def add (x y : Variables) : Variables :=
  ⟨x.a + y.a, x.b + y.b, x.c + y.c, x.d + y.d, x.e + y.e, x.f + y.f, x.g + y.g, x.h + y.h⟩

/-- The words in order. -/
def words (x : Variables) : List Word := [x.a, x.b, x.c, x.d, x.e, x.f, x.g, x.h]

end Variables

/-- The variables after so many rounds with these words. -/
noncomputable def rounds (w : Nat → Word) (x : Variables) : Nat → Variables
  | 0 => x
  | t + 1 =>
    let v := rounds w x t
    let t₁ := v.h + bigSigma1 v.e + choose v.e v.f v.g + constant t + w t
    let t₂ := bigSigma0 v.a + majority v.a v.b v.c
    ⟨t₁ + t₂, v.a, v.b, v.c, v.d + t₁, v.e, v.f, v.g⟩

/-- What the words are at first. -/
noncomputable def start : Variables :=
  let p t := fraction 2 (Nat.nth Nat.Prime t)
  ⟨p 0, p 1, p 2, p 3, p 4, p 5, p 6, p 7⟩

/-- What the words are after so many blocks. -/
noncomputable def hash (padded : List UInt8) : Nat → Variables
  | 0 => start
  | i + 1 =>
    (rounds (schedule fun t => wordAt padded (16 * i + t)) (hash padded i) 64).add (hash padded i)

/-- The text is the digest of the message in hexadecimal. -/
def IsDigest (message : List UInt8) (text : String) : Prop :=
  ∃ padded, Pads message padded ∧
    text.toList = (hash padded (padded.length / 64)).words.flatMap digits

/-! ### Numbers -/

theorem number_concat (bs : List UInt8) (b : UInt8) :
    number (bs ++ [b]) = 256 * number bs + b.toNat := by
  simp [number]

theorem eq_of_number_eq {bs cs : List UInt8} (hlength : bs.length = cs.length)
    (h : number bs = number cs) : bs = cs := by
  induction bs using List.reverseRecOn generalizing cs with
  | nil => exact (List.length_eq_zero_iff.mp hlength.symm).symm
  | append_singleton bs b ih =>
    obtain rfl | ⟨cs, c, rfl⟩ := cs.eq_nil_or_concat'
    · simp at hlength
    · rw [number_concat, number_concat] at h
      have hb := b.toNat_lt
      have hc := c.toNat_lt
      have hlast : b = c := UInt8.toNat_inj.mp (by omega)
      rw [ih (by simpa using hlength) (by omega), hlast]

theorem number_map_range (m k : Nat) :
    number ((List.range k).map fun i => UInt8.ofNat (m / 256 ^ (k - 1 - i))) = m % 256 ^ k := by
  induction k generalizing m with
  | zero => simp [number, Nat.mod_one]
  | succ k ih =>
    have hfront : (List.range k).map (fun i => UInt8.ofNat (m / 256 ^ (k + 1 - 1 - i))) =
        (List.range k).map fun i => UInt8.ofNat (m / 256 / 256 ^ (k - 1 - i)) := by
      refine List.map_congr_left fun i hi => ?_
      have hpow : k + 1 - 1 - i = (k - 1 - i) + 1 := by
        have := List.mem_range.mp hi
        omega
      rw [hpow, Nat.pow_succ', Nat.div_div_eq_div_mul]
    rw [List.range_succ, List.map_append, hfront, List.map_singleton, number_concat, ih,
      Nat.pow_succ', Nat.mod_mul, UInt8.toNat_ofNat']
    simp [Nat.add_comm]

theorem number_lengthBytes (n : Nat) : number (Sha256.lengthBytes n) = 8 * n % 2 ^ 64 :=
  number_map_range (8 * n) 8

theorem toNat_wordOf (b₀ b₁ b₂ b₃ : UInt8) :
    (Sha256.wordOf b₀ b₁ b₂ b₃).toNat = number [b₀, b₁, b₂, b₃] := by
  have h₀ := b₀.toNat_lt
  have h₁ := b₁.toNat_lt
  have h₂ := b₂.toNat_lt
  have h₃ := b₃.toNat_lt
  have hshift : ∀ (b : UInt8) (k : Nat), k ≤ 24 → b.toNat <<< k % 2 ^ 32 = b.toNat <<< k := by
    intro b k hk
    have hb := b.toNat_lt
    have hpow : 2 ^ k ≤ 2 ^ 24 := Nat.pow_le_pow_right (by omega) hk
    rw [Nat.shiftLeft_eq]
    refine Nat.mod_eq_of_lt ?_
    calc b.toNat * 2 ^ k ≤ b.toNat * 2 ^ 24 := Nat.mul_le_mul_left _ hpow
      _ < 2 ^ 32 := by omega
  have h₂₃ : b₂.toNat <<< 8 ||| b₃.toNat = b₂.toNat <<< 8 + b₃.toNat :=
    (Nat.shiftLeft_add_eq_or_of_lt h₃ _).symm
  have h₁₃ : b₁.toNat <<< 16 ||| (b₂.toNat <<< 8 + b₃.toNat) =
      b₁.toNat <<< 16 + (b₂.toNat <<< 8 + b₃.toNat) :=
    (Nat.shiftLeft_add_eq_or_of_lt (by rw [Nat.shiftLeft_eq]; omega) _).symm
  have h₀₃ : b₀.toNat <<< 24 ||| (b₁.toNat <<< 16 + (b₂.toNat <<< 8 + b₃.toNat)) =
      b₀.toNat <<< 24 + (b₁.toNat <<< 16 + (b₂.toNat <<< 8 + b₃.toNat)) :=
    (Nat.shiftLeft_add_eq_or_of_lt (by simp only [Nat.shiftLeft_eq]; omega) _).symm
  simp only [Sha256.wordOf, UInt32.toNat_or, UInt32.toNat_shiftLeft, UInt8.toNat_toUInt32,
    UInt32.reduceToNat, Nat.reduceMod, hshift _ 24 (by omega), hshift _ 16 (by omega),
    hshift _ 8 (by omega), Nat.or_assoc, h₂₃, h₁₃, h₀₃]
  simp only [number, List.foldl_cons, List.foldl_nil, Nat.shiftLeft_eq]
  omega

/-! ### Padding -/

/-- There is one way to pad a message. -/
theorem pads_iff {message padded : List UInt8} :
    Pads message padded ↔ padded = message ++ Sha256.padding message.length := by
  constructor
  · rintro ⟨zeros, length, rfl, hzeros, hlength, hnumber, hwhole⟩
    have hbytes : length = Sha256.lengthBytes message.length :=
      eq_of_number_eq (by simp [Sha256.lengthBytes, hlength])
        (hnumber.trans (number_lengthBytes _).symm)
    simp only [List.length_append, List.length_cons, List.length_replicate, hlength] at hwhole
    have hcount : (119 - message.length % 64) % 64 = zeros := by omega
    rw [Sha256.padding, hcount, hbytes, List.cons_append]
  · rintro rfl
    exact ⟨_, _, by rw [Sha256.padding, List.cons_append], Nat.mod_lt _ (by omega),
      by simp [Sha256.lengthBytes], number_lengthBytes _, Sha256.length_padded message⟩

/-! ### Blocks of bytes -/

theorem length_wordsOf (bytes : List UInt8) :
    (Sha256.wordsOf bytes).length = bytes.length / 4 := by
  fun_induction Sha256.wordsOf bytes with
  | case1 b₀ b₁ b₂ b₃ rest ih =>
    simp only [List.length_cons, ih]
    omega
  | case2 bytes hshort =>
    obtain _ | ⟨b₀, _ | ⟨b₁, _ | ⟨b₂, _ | ⟨b₃, rest⟩⟩⟩⟩ := bytes
    · rfl
    · simp
    · simp
    · simp
    · exact absurd rfl (hshort b₀ b₁ b₂ b₃ rest)

theorem toBitVec_wordsOf {bytes : List UInt8} {j : Nat} (h : j < (Sha256.wordsOf bytes).length) :
    (Sha256.wordsOf bytes)[j].toBitVec = wordAt bytes j := by
  fun_induction Sha256.wordsOf bytes generalizing j with
  | case1 b₀ b₁ b₂ b₃ rest ih =>
    cases j with
    | zero =>
      have hlt := (Sha256.wordOf b₀ b₁ b₂ b₃).toNat_lt
      refine BitVec.eq_of_toNat_eq ?_
      rw [List.getElem_cons_zero, UInt32.toNat_toBitVec, toNat_wordOf] at *
      exact (Nat.mod_eq_of_lt hlt).symm
    | succ j =>
      rw [List.getElem_cons_succ, ih]
      rfl
  | case2 bytes hshort => cases h

theorem wordAt_take_drop (bytes : List UInt8) (i : Nat) {j : Nat} (hj : j < 16) :
    wordAt ((bytes.drop (64 * i)).take 64) j = wordAt bytes (16 * i + j) := by
  rw [wordAt, wordAt, List.drop_take, List.take_take, List.drop_drop]
  have hmin : min 4 (64 - 4 * j) = 4 := by omega
  have hadd : 64 * i + 4 * j = 4 * (16 * i + j) := by omega
  rw [hmin, hadd]

theorem foldl_push_of_le (bytes : List UInt8) (p : Sha256.Progress)
    (h : p.count + bytes.length ≤ 63) :
    bytes.foldl Sha256.Progress.push p =
      ⟨p.chain, bytes.reverse ++ p.bytes, p.count + bytes.length⟩ := by
  induction bytes generalizing p with
  | nil => rfl
  | cons b bytes ih =>
    rw [List.length_cons] at h
    have hpush : p.push b = ⟨p.chain, b :: p.bytes, p.count + 1⟩ := by
      rw [Sha256.Progress.push, if_neg (by omega)]
    rw [List.foldl_cons, hpush, ih _ (by dsimp only; omega), List.length_cons, List.reverse_cons,
      List.append_assoc, Nat.add_assoc, Nat.add_comm 1]
    rfl

theorem foldl_push_block (x : Sha256.Chain) {bytes : List UInt8} (h : bytes.length = 64) :
    ∃ block : Sha256.Window, block.words.toList = Sha256.wordsOf bytes ∧
      bytes.foldl Sha256.Progress.push ⟨x, [], 0⟩ = ⟨Sha256.compress x block, [], 0⟩ := by
  obtain rfl | ⟨front, last, rfl⟩ := bytes.eq_nil_or_concat'
  · cases h
  have hfront : front.length = 63 := by simpa using h
  have hwords : (Sha256.wordsOf (front ++ [last])).toArray.size = 16 := by
    rw [List.size_toArray, length_wordsOf, h]
  refine ⟨⟨⟨_, hwords⟩⟩, rfl, ?_⟩
  have hfill : front.foldl Sha256.Progress.push ⟨x, [], 0⟩ = ⟨x, front.reverse, 63⟩ := by
    rw [foldl_push_of_le front _ (by simp [hfront]), hfront, List.append_nil]
  rw [List.foldl_append, hfill, List.foldl_cons, List.foldl_nil, Sha256.Progress.push, if_pos rfl]
  simp only [List.reverse_cons, List.reverse_reverse]
  exact dif_pos hwords

/-! ### Rounds -/

@[simp] theorem toBitVec_choose (x y z : UInt32) :
    (Sha256.choose x y z).toBitVec = choose x.toBitVec y.toBitVec z.toBitVec := rfl

@[simp] theorem toBitVec_majority (x y z : UInt32) :
    (Sha256.majority x y z).toBitVec = majority x.toBitVec y.toBitVec z.toBitVec := rfl

@[simp] theorem toBitVec_bigSigma0 (x : UInt32) :
    (Sha256.bigSigma0 x).toBitVec = bigSigma0 x.toBitVec := rfl

@[simp] theorem toBitVec_bigSigma1 (x : UInt32) :
    (Sha256.bigSigma1 x).toBitVec = bigSigma1 x.toBitVec := rfl

@[simp] theorem toBitVec_smallSigma0 (x : UInt32) :
    (Sha256.smallSigma0 x).toBitVec = smallSigma0 x.toBitVec := rfl

@[simp] theorem toBitVec_smallSigma1 (x : UInt32) :
    (Sha256.smallSigma1 x).toBitVec = smallSigma1 x.toBitVec := rfl

theorem schedule_of_lt (block : Nat → Word) {t : Nat} (h : t < 16) :
    schedule block t = block t := by
  rw [schedule, dif_pos h]

theorem schedule_add (block : Nat → Word) (t : Nat) :
    schedule block (t + 16) = smallSigma1 (schedule block (t + 14)) + schedule block (t + 9) +
      smallSigma0 (schedule block (t + 1)) + schedule block t := by
  rw [schedule, dif_neg (by omega)]
  rfl

/-- The window holds the words of sixteen rounds, of which this one is the first. -/
def Holds (w : Nat → Word) (t : Nat) (window : Sha256.Window) : Prop :=
  ∀ (j : Nat) (h : j < 16), window.words[j].toBitVec = w (t + j)

theorem Holds.next {block : Nat → Word} {t : Nat} {window : Sha256.Window}
    (h : Holds (schedule block) t window) : Holds (schedule block) (t + 1) window.next := by
  intro j hj
  obtain hlast | hj : j = 15 ∨ j < 15 := by omega
  · subst hlast
    have hdue : (window.next.words[15]).toBitVec = window.due.toBitVec := rfl
    have hfront : window.words[0].toBitVec = schedule block t := h 0 (by omega)
    rw [hdue, Nat.add_assoc, schedule_add, ← h 14 (by omega), ← h 9 (by omega), ← h 1 (by omega),
      ← hfront]
    simp only [Sha256.Window.due, UInt32.toBitVec_add, toBitVec_smallSigma0,
      toBitVec_smallSigma1]
  · have hshift : ∀ k : Fin 15, window.next.words[k.val] = window.words[k.val + 1] := by
      intro k
      fin_cases k <;> rfl
    rw [hshift ⟨j, hj⟩, h (j + 1) (by omega), Nat.add_assoc, Nat.add_comm 1]

/-- The words of a chain as bits. -/
def bits (x : Sha256.Chain) : Variables :=
  ⟨x.a.toBitVec, x.b.toBitVec, x.c.toBitVec, x.d.toBitVec, x.e.toBitVec, x.f.toBitVec, x.g.toBitVec,
    x.h.toBitVec⟩

/-- **Rounds**, from some round on: the induction is on the constants that are left. -/
theorem bits_foldl_round {block : Nat → Word} {x : Variables} (constants : List UInt32) {t : Nat}
    {s : Sha256.Chain × Sha256.Window}
    (hconstants : ∀ (i : Nat) (h : i < constants.length),
      constants[i].toBitVec = constant (t + i))
    (hchain : bits s.1 = rounds (schedule block) x t) (hwindow : Holds (schedule block) t s.2) :
    bits (constants.foldl Sha256.round s).1 =
      rounds (schedule block) x (t + constants.length) := by
  induction constants generalizing t s with
  | nil => exact hchain
  | cons k ks ih =>
    have hround : bits (Sha256.round s k).1 = rounds (schedule block) x (t + 1) := by
      have hk : k.toBitVec = constant t := hconstants 0 (by simp)
      have hfront : s.2.front.toBitVec = schedule block t := hwindow 0 (by omega)
      rw [rounds, ← hchain, ← hk, ← hfront]
      simp only [bits, Sha256.round, UInt32.toBitVec_add, toBitVec_choose, toBitVec_majority,
        toBitVec_bigSigma0, toBitVec_bigSigma1, BitVec.add_assoc]
    rw [List.foldl_cons, List.length_cons, Nat.add_comm ks.length, ← Nat.add_assoc]
    refine ih (fun i hi => ?_) hround hwindow.next
    rw [Nat.add_assoc, Nat.add_comm 1]
    exact hconstants (i + 1) (Nat.succ_lt_succ hi)

/-! ### Constants -/

/-- The primes below 312. -/
def primes : List Nat :=
  [2, 3, 5, 7, 11, 13, 17, 19, 23, 29, 31, 37, 41, 43, 47, 53, 59, 61, 67, 71, 73, 79, 83, 89, 97,
    101, 103, 107, 109, 113, 127, 131, 137, 139, 149, 151, 157, 163, 167, 173, 179, 181, 191, 193,
    197, 199, 211, 223, 227, 229, 233, 239, 241, 251, 257, 263, 269, 271, 277, 281, 283, 293, 307,
    311]

theorem nth_eq_getElem_filter {p : Nat → Prop} [DecidablePred p] (n : Nat) {t : Nat}
    (h : t < ((List.range n).filter p).length) : Nat.nth p t = ((List.range n).filter p)[t] := by
  induction n with
  | zero => cases h
  | succ n ih =>
    have hsplit : (List.range (n + 1)).filter p = (List.range n).filter p ++ [n].filter p := by
      rw [List.range_succ, List.filter_append]
    by_cases ht : t < ((List.range n).filter p).length
    · rw [List.getElem_of_eq hsplit, List.getElem_append_left ht, ih ht]
    · have hcount : Nat.count p n = ((List.range n).filter p).length := List.countP_eq_length_filter
      rw [hsplit, List.length_append] at h
      by_cases hn : p n
      · have hlast : [n].filter p = [n] := by simp [hn]
        rw [hlast, List.length_singleton] at h
        have ht' : t = ((List.range n).filter p).length := by omega
        have hnth := Nat.nth_count hn
        rw [hcount, ← ht'] at hnth
        rw [hnth, List.getElem_of_eq hsplit, List.getElem_append_right (by omega)]
        simp [hlast, ht']
      · have hnone : [n].filter p = [] := by simp [hn]
        rw [hnone, List.length_nil] at h
        omega

theorem prime_iff {n : Nat} (h : n < 324) :
    Nat.Prime n ↔ 2 ≤ n ∧ ∀ m < 18, 2 ≤ m → m < n → n % m ≠ 0 := by
  constructor
  · intro hprime
    refine ⟨hprime.two_le, fun m _ hm hlt hmod => ?_⟩
    rcases hprime.eq_one_or_self_of_dvd m (Nat.dvd_of_mod_eq_zero hmod) with h | h <;> omega
  · rintro ⟨htwo, hnone⟩
    refine Nat.prime_def_le_sqrt.mpr ⟨htwo, fun m hm hsqrt hdvd => ?_⟩
    have hsquare : m * m ≤ n := Nat.le_sqrt.mp hsqrt
    exact hnone m (by nlinarith) hm (by nlinarith) (Nat.mod_eq_zero_of_dvd hdvd)

theorem filter_prime : (List.range 312).filter Nat.Prime = primes := by
  have hall : (List.range 312).filter
      (fun n => 2 ≤ n ∧ ∀ m < 18, 2 ≤ m → m < n → n % m ≠ 0) = primes := by decide +kernel
  rw [← hall]
  refine List.filter_congr fun n hn => decide_eq_decide.mpr (prime_iff ?_)
  have := List.mem_range.mp hn
  omega

theorem nth_prime {t : Nat} (h : t < primes.length) : Nat.nth Nat.Prime t = primes[t] := by
  have ht : t < ((List.range 312).filter Nat.Prime).length := by rwa [filter_prime]
  have hnth := nth_eq_getElem_filter 312 ht
  simpa only [filter_prime] using hnth

/-- Some number before the point and the word behind it are the root of degree `k`, as far as they
go. -/
def IsFraction (k n : Nat) (w : UInt32) : Prop :=
  ∃ q : Fin 8, (q.val * 2 ^ 32 + w.toNat) ^ k ≤ n * 2 ^ (32 * k) ∧
    n * 2 ^ (32 * k) < (q.val * 2 ^ 32 + w.toNat + 1) ^ k

instance (k n : Nat) (w : UInt32) : Decidable (IsFraction k n w) :=
  inferInstanceAs (Decidable (∃ q : Fin 8, (q.val * 2 ^ 32 + w.toNat) ^ k ≤ n * 2 ^ (32 * k) ∧
    n * 2 ^ (32 * k) < (q.val * 2 ^ 32 + w.toNat + 1) ^ k))

theorem IsFraction.toBitVec {k n : Nat} {w : UInt32} (h : IsFraction k n w) :
    w.toBitVec = fraction k n := by
  obtain ⟨q, hle, hlt⟩ := h
  rw [fraction, Nat.nthRoot_eq_of_le_of_lt hle hlt]
  refine BitVec.eq_of_toNat_eq ?_
  have hw := w.toNat_lt
  rw [BitVec.toNat_ofNat, UInt32.toNat_toBitVec]
  omega

/-- A table of words that belong to the primes in turn. -/
theorem toBitVec_getElem {k : Nat} {words : List UInt32} (hlength : words.length ≤ primes.length)
    (hwords : ∀ row ∈ primes.zip words, IsFraction k row.1 row.2) {t : Nat}
    (h : t < words.length) : words[t].toBitVec = fraction k (Nat.nth Nat.Prime t) := by
  have hprime : t < primes.length := Nat.lt_of_lt_of_le h hlength
  have hrow : (primes[t], words[t]) ∈ primes.zip words := by
    rw [← List.getElem_zip]
    exact List.getElem_mem (by rw [List.length_zip]; omega)
  rw [nth_prime hprime]
  exact (hwords _ hrow).toBitVec

theorem toBitVec_roundConstants {t : Nat} (h : t < Sha256.roundConstants.length) :
    Sha256.roundConstants[t].toBitVec = constant t :=
  toBitVec_getElem (by decide) (by decide +kernel) h

theorem bits_start : bits Sha256.Chain.start = start := by
  have hroot : ∀ (t : Nat) (h : t < Sha256.Chain.start.words.length),
      Sha256.Chain.start.words[t].toBitVec = fraction 2 (Nat.nth Nat.Prime t) := fun t h =>
    toBitVec_getElem (by decide) (by decide +kernel) h
  simp only [bits, start, Variables.mk.injEq]
  exact ⟨hroot 0 (by decide), hroot 1 (by decide), hroot 2 (by decide), hroot 3 (by decide),
    hroot 4 (by decide), hroot 5 (by decide), hroot 6 (by decide), hroot 7 (by decide)⟩

/-! ### The digest -/

theorem bits_compress {x : Sha256.Chain} {window : Sha256.Window} {block : Nat → Word}
    (h : ∀ (j : Nat) (hj : j < 16), window.words[j].toBitVec = block j) :
    bits (Sha256.compress x window) = (rounds (schedule block) (bits x) 64).add (bits x) := by
  have hwindow : Holds (schedule block) 0 window := by
    intro j hj
    rw [h j hj, Nat.zero_add, schedule_of_lt block hj]
  have hrounds : bits (Sha256.roundConstants.foldl Sha256.round (x, window)).1 =
      rounds (schedule block) (bits x) 64 :=
    bits_foldl_round _ (fun i hi => by rw [Nat.zero_add]; exact toBitVec_roundConstants hi) rfl
      hwindow
  rw [← hrounds]
  simp only [Sha256.compress, Sha256.Chain.add, bits, Variables.add, UInt32.toBitVec_add,
    BitVec.add_comm]

/-- **Blocks**: after so many of them, nothing is kept but the chain. -/
theorem foldl_push_blocks {padded : List UInt8} (n : Nat) (h : 64 * n ≤ padded.length) :
    ∃ x : Sha256.Chain, bits x = hash padded n ∧
      (padded.take (64 * n)).foldl Sha256.Progress.push ⟨.start, [], 0⟩ = ⟨x, [], 0⟩ := by
  induction n with
  | zero => exact ⟨_, bits_start, rfl⟩
  | succ n ih =>
    obtain ⟨x, hx, hfold⟩ := ih (by omega)
    have hlength : ((padded.drop (64 * n)).take 64).length = 64 := by
      simp only [List.length_take, List.length_drop]
      omega
    obtain ⟨window, hwindow, hblock⟩ := foldl_push_block x hlength
    refine ⟨Sha256.compress x window, ?_, ?_⟩
    · rw [hash, ← hx]
      refine bits_compress fun j hj => ?_
      have hj' : j < (Sha256.wordsOf ((padded.drop (64 * n)).take 64)).length := by
        rw [length_wordsOf, hlength]
        exact hj
      rw [← wordAt_take_drop padded n hj, ← toBitVec_wordsOf hj']
      simp only [← hwindow, Vector.getElem_toList]
    · rw [Nat.mul_succ, List.take_add, List.foldl_append, hfold, hblock]

theorem ofBytes_bytesOf (x : UInt32) : Hex.ofBytes (Sha256.bytesOf x) = digits x.toBitVec := by
  have hhigh : ∀ n : Nat, n % 256 / 16 = n / 16 % 16 := by omega
  have hx : x.toNat / 16777216 % 256 / 16 = x.toNat / 268435456 % 16 := by omega
  simp [Hex.ofBytes, Hex.ofByte, Hex.digit, Sha256.bytesOf, digits, List.range_succ,
    Nat.shiftRight_eq_div_pow, hhigh, Nat.div_div_eq_div_mul]

/-- **The digest is that of the standard**, and there is no other. -/
theorem isDigest_iff {message : List UInt8} {text : String} :
    IsDigest message text ↔ text = Sha256.hexDigest message := by
  have htext : ∀ padded, Pads message padded →
      (hash padded (padded.length / 64)).words.flatMap digits =
        (Sha256.hexDigest message).toList := by
    intro padded hpads
    have hpadded := pads_iff.mp hpads
    have hwhole : padded.length % 64 = 0 := by rw [hpadded, Sha256.length_padded]
    obtain ⟨x, hx, hfold⟩ := foldl_push_blocks _ (Nat.mul_div_le padded.length 64)
    have hwords : (bits x).words = x.words.map UInt32.toBitVec := rfl
    rw [List.take_of_length_le (by omega), hpadded] at hfold
    rw [← hx, hwords, List.flatMap_map, Sha256.hexDigest, Sha256.digest, hfold,
      String.toList_ofList, Hex.ofBytes, List.flatMap_assoc]
    simp only [← ofBytes_bytesOf, Hex.ofBytes]
  constructor
  · rintro ⟨padded, hpads, h⟩
    exact String.toList_inj.mp (h.trans (htext padded hpads))
  · rintro rfl
    exact ⟨_, pads_iff.mpr rfl, (htext _ (pads_iff.mpr rfl)).symm⟩

end Turnstile.Digest.Standard
