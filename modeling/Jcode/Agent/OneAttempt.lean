import Jcode.Agent.RetriedStream

/-!
# One attempt in one message: the providers

What the OpenRouter and the Anthropic provider send for a sequence of attempts, and when the turn
loop makes a message of one of them.
-/

namespace Jcode

variable (lowercase : String → String) (attempts : Nat → Attempt)

/-! ### OpenRouter -/

namespace OpenRouter

def sent (i : Nat) : List StreamEvent := (streamResponse (attempts i)).1

def Ended (i : Nat) : Prop := (streamResponse (attempts i)).2 = none

def Retried (i : Nat) : Prop :=
  ∃ error, (streamResponse (attempts i)).2 = some error ∧ isRetryableError (lowercase error)

def Succeeds : Nat → Prop := SucceedsAt (Ended attempts) (Retried lowercase attempts)

variable {lowercase attempts}

lemma not_ended_of_retried (i : Nat) (h : Retried lowercase attempts i) : ¬ Ended attempts i := by
  obtain ⟨error, herror, -⟩ := h
  rw [Ended, herror]
  exact Option.some_ne_none error

lemma noSession (i : Nat) (sid : String) : .sessionId sid ∉ sent attempts i := by
  rw [sent]
  cases attempts i with
  | refused error => simp [streamResponse]
  | accepted body => simp [streamResponse, body.noSession sid]

lemma runAttempts_sends {left attempt : Nat} {lastError : Option String}
    (hleft : attempt + left = maxRetries) (hlast : left = 0 → lastError.isSome)
    (hbefore : ∀ i < attempt, Retried lowercase attempts i) :
    SendsFrom (sent attempts) (Succeeds lowercase attempts) attempt
      (runAttempts lowercase attempts left attempt lastError) := by
  induction left generalizing attempt lastError with
  | zero =>
    obtain ⟨error, rfl⟩ := Option.isSome_iff_exists.mp (hlast rfl)
    exact .inr ⟨not_succeedsAt not_ended_of_retried hbefore (by omega) (by omega), [], _, by simp,
      rfl⟩
  | succ left ih =>
    cases hfailure : (streamResponse (attempts attempt)).2 with
    | none =>
      simp only [runAttempts, hfailure, List.append_nil]
      exact .success ⟨by omega, hfailure, hbefore⟩
    | some error =>
      simp only [runAttempts, hfailure]
      split_ifs with hretry
      · have hretried : Retried lowercase attempts attempt := ⟨error, hfailure, hretry.1⟩
        refine .retry (ih (by omega) (fun _ => rfl) fun i hi => ?_)
        obtain hlt | rfl := Nat.lt_succ_iff_lt_or_eq.mp hi
        · exact hbefore i hlt
        · exact hretried
      · refine SendsFrom.giveUp (not_succeedsAt not_ended_of_retried hbefore (fun _ hend => ?_)
          fun hlt hretried => ?_) error
        · exact Option.some_ne_none error (hfailure.symm.trans hend)
        · obtain ⟨error', herror', hretryable⟩ := hretried
          cases hfailure.symm.trans herror'
          exact hretry ⟨hretryable, hlt⟩

theorem runStreamWithRetries_sends :
    SendsFrom (sent attempts) (Succeeds lowercase attempts) 0
      (runStreamWithRetries lowercase attempts) :=
  runAttempts_sends rfl (by simp [maxRetries]) (by simp)

end OpenRouter

/-! ### Anthropic -/

namespace Anthropic

variable (isOauth : Bool) (refresh : Except String Unit)

def failure (i : Nat) : Option String := (streamResponse lowercase (attempts i)).2

def authFails (i : Nat) : Bool :=
  isOauth && (failure lowercase attempts i).any fun error => isOauthAuthError (lowercase error)

/-- A token refresh is forced once, after the first attempt that the authentication fails. -/
def refreshes (i : Nat) : Bool :=
  authFails lowercase attempts isOauth i &&
    !(List.range i).any (authFails lowercase attempts isOauth)

def sent (i : Nat) : List StreamEvent :=
  retryPhase i ++ (streamResponse lowercase (attempts i)).1 ++
    if refreshes lowercase attempts isOauth i then [.connectionPhase .authenticating] else []

def Ended (i : Nat) : Prop := failure lowercase attempts i = none

def Retried (i : Nat) : Prop :=
  ∃ error, failure lowercase attempts i = some error ∧
    if refreshes lowercase attempts isOauth i then refresh = .ok ()
    else isRetryableError (lowercase error)

def Succeeds : Nat → Prop :=
  SucceedsAt (Ended lowercase attempts) (Retried lowercase attempts isOauth refresh)

variable {lowercase attempts isOauth refresh}

lemma not_ended_of_retried (i : Nat) (h : Retried lowercase attempts isOauth refresh i) :
    ¬ Ended lowercase attempts i := by
  obtain ⟨error, herror, -⟩ := h
  rw [Ended, herror]
  exact Option.some_ne_none error

lemma forwardEvents_sublist (events : List StreamEvent) :
    (forwardEvents lowercase events).1.Sublist events := by
  induction events with
  | nil => exact .slnil
  | cons event events ih =>
    cases event with
    | error message retryAfterSecs =>
      rw [forwardEvents]
      split_ifs
      · exact List.nil_sublist _
      · exact ih.cons_cons _
    | _ => exact ih.cons_cons _

lemma noSession (i : Nat) (sid : String) :
    .sessionId sid ∉ sent lowercase attempts isOauth i := by
  have hresponse : .sessionId sid ∉ (streamResponse lowercase (attempts i)).1 := by
    cases attempts i with
    | refused error => simp [streamResponse]
    | accepted body =>
      have hforward : .sessionId sid ∉ (forwardEvents lowercase body.events).1 :=
        fun h => body.noSession sid ((forwardEvents_sublist body.events).subset h)
      have husage : .sessionId sid ∉ finalUsage body.tokens := by
        rw [finalUsage]
        split_ifs <;> simp
      simp only [streamResponse]
      split
      · simp_all
      · split <;> simp_all
  have hphase : .sessionId sid ∉ retryPhase i := by
    rw [retryPhase]
    split_ifs <;> simp
  rw [sent]
  split_ifs <;> simp [hphase, hresponse]

lemma runAttempts_sends {left attempt : Nat} {lastError : Option String} {attempted : Bool}
    (hleft : attempt + left = maxRetries) (hlast : left = 0 → lastError.isSome)
    (hattempted : attempted = (List.range attempt).any (authFails lowercase attempts isOauth))
    (hbefore : ∀ i < attempt, Retried lowercase attempts isOauth refresh i) :
    SendsFrom (sent lowercase attempts isOauth) (Succeeds lowercase attempts isOauth refresh)
      attempt
      (runAttempts lowercase attempts isOauth refresh left attempt lastError attempted) := by
  induction left generalizing attempt lastError attempted with
  | zero =>
    obtain ⟨error, rfl⟩ := Option.isSome_iff_exists.mp (hlast rfl)
    exact .inr ⟨not_succeedsAt not_ended_of_retried hbefore (by omega) (by omega), [], _, by simp,
      rfl⟩
  | succ left ih =>
    have hnext {retried : Bool} (hretried : Retried lowercase attempts isOauth refresh attempt)
        (hany : retried = (List.range (attempt + 1)).any (authFails lowercase attempts isOauth))
        (error : String) :=
        @ih (attempt + 1) (some error) retried (by omega) (fun _ => rfl) hany fun i hi => by
            obtain hlt | rfl := Nat.lt_succ_iff_lt_or_eq.mp hi
            · exact hbefore i hlt
            · exact hretried
    have hany : (List.range (attempt + 1)).any (authFails lowercase attempts isOauth) =
        (attempted || authFails lowercase attempts isOauth attempt) := by
      rw [hattempted, List.range_succ, List.any_append]
      simp
    have hrefreshes : refreshes lowercase attempts isOauth attempt =
        (authFails lowercase attempts isOauth attempt && !attempted) := by
      rw [refreshes, hattempted]
    cases hfailure : (streamResponse lowercase (attempts attempt)).2 with
    | none =>
      have hauth : authFails lowercase attempts isOauth attempt = false := by
        simp [authFails, failure, hfailure]
      have hsent : retryPhase attempt ++ (streamResponse lowercase (attempts attempt)).1 =
          sent lowercase attempts isOauth attempt := by
        simp [sent, hrefreshes, hauth]
      simp only [runAttempts, hfailure, List.append_nil]
      rw [hsent]
      exact .success ⟨by omega, hfailure, hbefore⟩
    | some error =>
      have hauth : authFails lowercase attempts isOauth attempt =
          (isOauth && isOauthAuthError (lowercase error)) := by
        simp [authFails, failure, hfailure]
      have hgiveUp (message : String) (hretry : attempt + 1 < maxRetries →
          ¬ Retried lowercase attempts isOauth refresh attempt) :
          SendsFrom (sent lowercase attempts isOauth)
            (Succeeds lowercase attempts isOauth refresh) attempt
            ((sent lowercase attempts isOauth attempt).map .ok ++ [.error message]) :=
        .giveUp (not_succeedsAt not_ended_of_retried hbefore
          (fun _ hend => Option.some_ne_none error (hfailure.symm.trans hend)) hretry) message
      have hretried_iff : Retried lowercase attempts isOauth refresh attempt ↔
          if refreshes lowercase attempts isOauth attempt then refresh = .ok ()
          else isRetryableError (lowercase error) := by
        rw [Retried, failure, hfailure]
        simp
      simp only [runAttempts, hfailure]
      by_cases hfirst : isOauth ∧ isOauthAuthError (lowercase error) ∧ !attempted
      · have hyes : refreshes lowercase attempts isOauth attempt = true := by
          rw [hrefreshes, hauth, hfirst.1, hfirst.2.1, hfirst.2.2]
          rfl
        have hsent : (sent lowercase attempts isOauth attempt).map Except.ok =
            (retryPhase attempt ++ (streamResponse lowercase (attempts attempt)).1).map Except.ok ++
              [(.ok (.connectionPhase .authenticating) : StreamItem)] := by
          simp [sent, hyes]
        rw [hyes, if_pos rfl] at hretried_iff
        rw [if_pos hfirst, List.append_cons, ← hsent]
        cases hrefresh : refresh with
        | ok u =>
          have hretried := hretried_iff.mpr hrefresh
          have hflag : true = (attempted || authFails lowercase attempts isOauth attempt) := by
            rw [hauth, hfirst.1, hfirst.2.1]
            exact (Bool.or_true attempted).symm
          rw [hrefresh] at hnext hretried
          exact .retry (hnext hretried (hflag.trans hany.symm) error)
        | error refreshError =>
          rw [hrefresh] at hgiveUp hretried_iff
          exact hgiveUp _ fun _ hretried => by cases hretried_iff.mp hretried
      · have hno : refreshes lowercase attempts isOauth attempt = false := by
          rw [hrefreshes, hauth, Bool.eq_false_iff]
          intro h
          exact hfirst (by simpa [and_assoc] using h)
        have hsent : (sent lowercase attempts isOauth attempt) =
            retryPhase attempt ++ (streamResponse lowercase (attempts attempt)).1 := by
          simp [sent, hno]
        rw [hno, if_neg Bool.false_ne_true] at hretried_iff
        rw [if_neg hfirst, ← hsent]
        split_ifs with hretry hauthError
        · have hflag :
              attempted = (attempted || authFails lowercase attempts isOauth attempt) := by
            rw [hno] at hrefreshes
            revert hrefreshes
            cases attempted <;> cases authFails lowercase attempts isOauth attempt <;> simp
          exact .retry (hnext (hretried_iff.mpr hretry.1) (hflag.trans hany.symm) error)
        · exact hgiveUp _ fun hlt hretried => hretry ⟨hretried_iff.mp hretried, hlt⟩
        · exact hgiveUp _ fun hlt hretried => hretry ⟨hretried_iff.mp hretried, hlt⟩

theorem runStreamWithRetries_sends :
    SendsFrom (sent lowercase attempts isOauth) (Succeeds lowercase attempts isOauth refresh) 0
      (runStreamWithRetries lowercase attempts isOauth refresh) :=
  runAttempts_sends rfl (by simp [maxRetries]) rfl (by simp)

end Anthropic

/-! ### Messages of one attempt -/

theorem runStreamWithRetries_oneAttempt_iff :
    (OneAttempt (OpenRouter.runStreamWithRetries lowercase attempts) (OpenRouter.sent attempts)
        (OpenRouter.Succeeds lowercase attempts) ↔
      KeepsOneAttempt (OpenRouter.sent attempts) (OpenRouter.Succeeds lowercase attempts)) ∧
    ∀ isOauth refresh,
      (OneAttempt (Anthropic.runStreamWithRetries lowercase attempts isOauth refresh)
          (Anthropic.sent lowercase attempts isOauth)
          (Anthropic.Succeeds lowercase attempts isOauth refresh) ↔
        KeepsOneAttempt (Anthropic.sent lowercase attempts isOauth)
          (Anthropic.Succeeds lowercase attempts isOauth refresh)) := by
  refine ⟨?_, fun isOauth refresh => ?_⟩
  · exact oneAttempt_iff OpenRouter.not_ended_of_retried OpenRouter.noSession
      OpenRouter.runStreamWithRetries_sends
  · exact oneAttempt_iff Anthropic.not_ended_of_retried Anthropic.noSession
      Anthropic.runStreamWithRetries_sends

/-- The connection breaks after three letters, and the retry sends the whole text. -/
def brokenAttempts : Nat → Attempt
  | 0 => .accepted {
      events := [.textDelta "Hel"]
      failure := some "Stream error: connection reset"
      tokens := ⟨none, none, none, none⟩
      noSession := by simp }
  | _ => .accepted {
      events := [.textDelta "Hello", .messageEnd none]
      failure := none
      tokens := ⟨none, none, none, none⟩
      noSession := by simp }

/-- The markers are looked for in the lowered text. -/
lemma isRetryableError_reset :
    OpenRouter.isRetryableError "Stream error: connection reset".toLower = true := by
  have htext : "Stream error: connection reset".toList = _ := String.toList_ofList
  have hmarker : "connection reset".toList = _ := String.toList_ofList
  have hlower (text : String) : text.toLower.toList = text.toList.map Char.toLower :=
    String.toList_map
  have hcontains :
      containsText "Stream error: connection reset".toLower.toLower "connection reset" = true := by
    rw [containsText, hmarker, hlower, hlower, htext]
    decide +kernel
  have htransient : isTransientTransportError "Stream error: connection reset".toLower = true :=
    List.any_eq_true.mpr ⟨_, List.mem_cons_self, hcontains⟩
  simp only [OpenRouter.isRetryableError, htransient, Bool.true_or]

lemma runStreamWithRetries_brokenAttempts :
    OpenRouter.runStreamWithRetries String.toLower brokenAttempts =
      [.connectionPhase .connecting, .connectionPhase .waitingForResponse, .textDelta "Hel",
        .connectionPhase .connecting, .connectionPhase .waitingForResponse, .textDelta "Hello",
        .messageEnd none].map .ok := by
  have hfirst : OpenRouter.streamResponse (brokenAttempts 0) =
      ([.connectionPhase .connecting, .connectionPhase .waitingForResponse, .textDelta "Hel"],
        some "Stream error: connection reset") := rfl
  rw [OpenRouter.runStreamWithRetries, maxRetries, OpenRouter.runAttempts, hfirst]
  dsimp only
  rw [if_pos ⟨isRetryableError_reset, by decide⟩]
  rfl

/-- The message reads "HelHello". -/
theorem runStreamWithRetries_duplicatesText :
    ¬ OneAttempt (OpenRouter.runStreamWithRetries String.toLower brokenAttempts)
      (OpenRouter.sent brokenAttempts) (OpenRouter.Succeeds String.toLower brokenAttempts) := by
  rw [oneAttempt_iff_foldl]
  intro h
  obtain ⟨k, -, hmsg⟩ := h ("HelHello", []) (by
    rw [runStreamWithRetries_brokenAttempts]
    decide +kernel)
  cases k with
  | zero => exact absurd hmsg (by decide +kernel)
  | succ k =>
    have hsent : attemptMessage (OpenRouter.sent brokenAttempts (k + 1)) = ("Hello", []) := rfl
    rw [hsent] at hmsg
    exact absurd hmsg (by decide)

end Jcode
