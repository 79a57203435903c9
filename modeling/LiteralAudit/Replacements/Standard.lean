import LiteralAudit.Literal
import LiteralAudit.Replacements

/-!
The replacements that are known without any settings: the literals of the
travel services application, grouped by the screens that show them.
-/

namespace LiteralAudit.Replacements

/-- Screens on which a user signs in or registers. -/
def signingIn : List (String × String) :=
  [("Welcome Back", "t('auth.welcomeBack')"),
   ("Sign in to continue to Patrick Travel Services", "t('auth.signInToContinue')"),
   ("Create Account", "t('auth.createAccount')"),
   ("Sign up to get started with Patrick Travel Services", "t('auth.signUpToGetStarted')"),
   ("Email", "t('auth.email')"),
   ("Password", "t('auth.password')"),
   ("Confirm Password", "t('auth.confirmPassword')"),
   ("First Name", "t('auth.firstName')"),
   ("Last Name", "t('auth.lastName')"),
   ("Phone (Optional)", "t('auth.phoneOptional')"),
   ("Sign In", "t('auth.signIn')"),
   ("Sign Up", "t('auth.signUp')"),
   ("Remember me", "t('auth.rememberMe')"),
   ("Forgot Password?", "t('auth.forgotPassword')"),
   ("Don't have an account? ", "t('auth.dontHaveAccount') + ' '"),
   ("Already have an account? ", "t('auth.alreadyHaveAccount') + ' '")]

/-- The screen that sums up a user's cases. -/
def overview : List (String × String) :=
  [("Total Cases", "t('dashboard.totalCases')"),
   ("Active Cases", "t('dashboard.activeCases')"),
   ("Pending Documents", "t('dashboard.pendingDocuments')"),
   ("Unread Messages", "t('dashboard.unreadMessages')"),
   ("Quick Actions", "t('dashboard.quickActions')"),
   ("Submit New Case", "t('dashboard.submitNewCase')"),
   ("Upload Document", "t('dashboard.uploadDocument')"),
   ("View FAQs", "t('dashboard.viewFAQs')")]

/-- The list of cases and the page of one case. -/
def caseScreens : List (String × String) :=
  [("Search by reference number", "t('cases.searchByReference')"),
   ("No cases found", "t('cases.noCasesFound')"),
   ("Message Advisor", "t('cases.messageAdvisor')"),
   ("Status History", "t('cases.statusHistory')")]

/-- Short texts that every screen may show. -/
def everywhere : List (String × String) :=
  [("Loading...", "t('common.loading')"),
   ("Success", "t('common.success')"),
   ("Error", "t('common.error')"),
   ("OK", "t('common.ok')"),
   ("Cancel", "t('common.cancel')"),
   ("Save", "t('common.save')"),
   ("Delete", "t('common.delete')")]

/-- The groups as one list of entries. An entry is written with the interior of
its literal; the key has the quotes too. -/
def standardEntries : List (Text × Text) :=
  (signingIn ++ overview ++ caseScreens ++ everywhere).map fun (interior, expression) =>
    (Literal.ofInterior interior.toList, expression.toList)

/-- The table to which settings add. -/
def standard : Replacements := ofList standardEntries

end LiteralAudit.Replacements
