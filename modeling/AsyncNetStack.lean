import AsyncNetStack.Device.Theorems.Fifo
import AsyncNetStack.Net.Theorems.Hosts
import AsyncNetStack.Net.Theorems.Route
import AsyncNetStack.Net.Theorems.Probes
import AsyncNetStack.Net.Theorems.Replies
import AsyncNetStack.Simulation.Theorems.Epochs
import AsyncNetStack.Simulation.Theorems.Faults
import AsyncNetStack.Uring.Theorems.Session
import AsyncNetStack.Udp.Theorems.Fair
import AsyncNetStack.Udp.Theorems.Pacing
import AsyncNetStack.Udp.Theorems.Deadline
import AsyncNetStack.Udp.Theorems.Receipts
import AsyncNetStack.Udp.Theorems.Coordinated
import AsyncNetStack.Dns.Theorems.Effort
import AsyncNetStack.Dns.Theorems.Cache
import AsyncNetStack.Transport.Theorems.BitErrors
import AsyncNetStack.Tcp.Theorems.Tables
import AsyncNetStack.Tcp.Theorems.LiveAcks
import AsyncNetStack.Tcp.Theorems.Deadlines
import AsyncNetStack.Tcp.Theorems.Karn
import AsyncNetStack.Telemetry.Theorems.Export
import AsyncNetStack.ShmNic.Theorems.Handover
import AsyncNetStack.Udp.Theorems.Echo
