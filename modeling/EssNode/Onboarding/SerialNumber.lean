import EssNode.Onboarding

/-!
# Generated Serial Numbers

A node without a serial number makes one, from the name of its host and the master secret: three
letters or digits of the name, a running number, and a checksum over both. The check of a serial
number takes it apart at the dashes, so it has to find four parts, and the checksum must be
in the case it compares in.

No dash gets into the letters of the host, since a dash is neither letter nor digit, and a host
without any gives a part of its own. The checksum is made of hexadecimal digits. So a generated
number passes the check under the secret it was made with (`generated_sn_verifies`).

Which characters are letters or digits, and upper case outside of ASCII, are not modelled: the
first is a parameter, and of the second only what it does to ASCII is assumed.
-/

namespace EssNode

open Bincode String Text

namespace Onboarding

/-- The serial number for a host. A host whose name cannot be had is a `NODE`. -/
def autoGenerateSn (env : OnboardingEnv) (isAlphanumeric : Char → Bool)
    (hostname : Option String) : String :=
  let host := (hostname.map env.toUppercase).getD "NODE"
  let hostPart := ofList ((host.toList.filter isAlphanumeric).take 3)
  let hostPart := if hostPart = "" then "NOD" else hostPart
  let baseSn := "ESSBB-" ++ hostPart ++ "-001"
  match env.masterSecret with
  | none => baseSn ++ "-0000"
  | some keyBytes =>
    match env.hmacSha256 keyBytes (utf8 baseSn) with
    | .error _ => baseSn ++ "-0000"
    | .ok result =>
      let hash := hexEncode result.toList
      let checksum := env.toUppercase (lastChars 4 hash)
      baseSn ++ "-" ++ checksum

/-- ASCII is put in upper case character by character. -/
def UppercasesAscii (env : OnboardingEnv) : Prop :=
  ∀ s : String, (∀ c ∈ s.toList, c.toNat < 128) →
    env.toUppercase s = ofList (s.toList.map Char.toUpper)

theorem mem_lastChars_hexEncode {n : Nat} {bytes : List UInt8} {c : Char}
    (h : c ∈ (lastChars n (hexEncode bytes)).toList) : ∃ m < 16, c = Nat.digitChar m := by
  rw [lastChars, toList_ofList] at h
  have hc := List.mem_of_mem_drop h
  rw [hexEncode, toList_ofList, List.mem_flatMap] at hc
  obtain ⟨b, -, hb⟩ := hc
  have hlt := b.toNat_lt
  rcases List.mem_pair.mp hb with rfl | rfl
  · exact ⟨b.toNat / 16, by omega, rfl⟩
  · exact ⟨b.toNat % 16, by omega, rfl⟩

theorem checksum_upper {env : OnboardingEnv} (hupper : UppercasesAscii env) (n : Nat)
    (bytes : List UInt8) :
    let checksum := env.toUppercase (lastChars n (hexEncode bytes))
    '-' ∉ checksum.toList ∧ env.toUppercase checksum = checksum := by
  have hdigit : ∀ m < 16, (Nat.digitChar m).toNat < 128 ∧ (Nat.digitChar m).toUpper ≠ '-' ∧
      (Nat.digitChar m).toUpper.toNat < 128 ∧
      (Nat.digitChar m).toUpper.toUpper = (Nat.digitChar m).toUpper := by decide
  have hchars : ∀ c ∈ (lastChars n (hexEncode bytes)).toList, c.toNat < 128 ∧ c.toUpper ≠ '-' ∧
      c.toUpper.toNat < 128 ∧ c.toUpper.toUpper = c.toUpper := by
    intro c hc
    obtain ⟨m, hm, rfl⟩ := mem_lastChars_hexEncode hc
    exact hdigit m hm
  intro checksum
  have hchecksum : checksum
      = ofList ((lastChars n (hexEncode bytes)).toList.map Char.toUpper) :=
    hupper _ fun c hc => (hchars c hc).1
  rw [hchecksum, hupper, toList_ofList]
  · refine ⟨fun hdash => ?_, congrArg ofList ?_⟩
    · obtain ⟨c, hc, heq⟩ := List.mem_map.mp hdash
      exact (hchars c hc).2.1 heq
    · rw [List.map_map]
      exact List.map_congr_left fun c hc => (hchars c hc).2.2.2
  · rw [toList_ofList]
    intro c hc
    obtain ⟨d, hd, rfl⟩ := List.mem_map.mp hc
    exact (hchars d hd).2.2.1

theorem split_dashed {a b c d : String} (h : ∀ part ∈ [a, b, c, d], '-' ∉ part.toList) :
    split '-' (a ++ "-" ++ b ++ "-" ++ c ++ "-" ++ d) = [a, b, c, d] := by
  have hjoined : (a ++ "-" ++ b ++ "-" ++ c ++ "-" ++ d).toList
      = ['-'].intercalate ([a, b, c, d].map toList) := by
    simp [List.intercalate]
  rw [split, hjoined, List.splitOn_intercalate]
  · simp
  · intro part hpart
    obtain ⟨s, hs, rfl⟩ := List.mem_map.mp hpart
    exact h s hs
  · simp

/-- A generated serial number passes the check with the secret it was made with. -/
theorem generated_sn_verifies (env : OnboardingEnv) (isAlphanumeric : Char → Bool)
    (mac : List UInt8 → List UInt8 → Vector UInt8 32) (secret : List UInt8)
    (hdash : isAlphanumeric '-' = false) (hupper : UppercasesAscii env)
    (hostname : Option String) :
    let env := { env with
      masterSecret := some secret, hmacSha256 := fun key data => .ok (mac key data) }
    verifySnChecksum env (autoGenerateSn env isAlphanumeric hostname) = true := by
  intro env'
  unfold autoGenerateSn
  extract_lets host hostPart₀ hostPart baseSn
  have hhost : '-' ∉ hostPart.toList := by
    unfold hostPart hostPart₀
    split
    · decide
    · rw [String.toList_ofList]
      intro hmem
      have hletter := (List.mem_filter.mp (List.mem_of_mem_take hmem)).2
      rw [hdash] at hletter
      exact Bool.false_ne_true hletter
  have hbase : baseSn = "ESSBB" ++ "-" ++ hostPart ++ "-" ++ "001" := by
    rw [← String.toList_inj]
    simp [baseSn]
  obtain ⟨hchecksum, hagain⟩ := checksum_upper hupper 4 (mac secret (utf8 baseSn)).toList
  -- The check takes the number apart as it was put together.
  have hsplit := split_dashed (a := "ESSBB") (b := hostPart) (c := "001")
    (d := env.toUppercase (lastChars 4 (hexEncode (mac secret (utf8 baseSn)).toList))) (by
      simp only [List.forall_mem_cons, List.not_mem_nil, false_imp_iff, implies_true, and_true]
      exact ⟨by decide, hhost, by decide, hchecksum⟩)
  rw [← hbase] at hsplit
  dsimp only [env']
  rw [verifySnChecksum, hsplit]
  dsimp only
  rw [if_neg (by decide), ← hbase, hagain]
  exact decide_eq_true rfl

/-- The number of a host with a dash in its name. -/
theorem generated_sn_dashed_host :
    let env : OnboardingEnv :=
      { tagEnv with toUppercase := fun s => String.ofList (s.toList.map Char.toUpper)
                    masterSecret := some [1]
                    hmacSha256 := fun _ _ => .ok (.replicate 32 0xAB) }
    autoGenerateSn env Char.isAlphanum (some "a-b.c") = "ESSBB-ABC-001-ABAB" ∧
      verifySnChecksum env "ESSBB-ABC-001-ABAB" = true := by
  intro env
  have hsn : autoGenerateSn env Char.isAlphanum (some "a-b.c") = "ESSBB-ABC-001-ABAB" := by
    decide +kernel
  refine ⟨hsn, ?_⟩
  rw [← hsn]
  exact generated_sn_verifies env Char.isAlphanum (fun _ _ => .replicate 32 0xAB) [1] (by decide)
    (fun _ _ => rfl) (some "a-b.c")

end Onboarding

end EssNode
